import SealedGraph.Access.Session
import SealedGraph.Access.Visibility
import SealedGraph.Command.Run
import SealedGraph.Config.Load
import SealedGraph.Fresh
import SealedGraph.Http.Handler
import SealedGraph.Main
import SealedGraph.Node.Json
import SealedGraph.Proofs.Authority
import SealedGraph.Proofs.BruteForce
import SealedGraph.Proofs.Concealment
import SealedGraph.Proofs.Lifetime
import SealedGraph.Text.Percent
import SealedGraph.Registry.Link
import SealedGraph.Registry.Mailbox
import SealedGraph.Request.Account
import SealedGraph.Request.Graph
import SealedGraph.Secret
import SealedGraph.Store.Accounts
import SealedGraph.Store.Query
import SealedGraph.Store.Share
import SealedGraph.Store.Update
import SealedGraph.User
import SealedGraph.Proofs.Registry.Groups
import SealedGraph.Proofs.Http.Sharing
import SealedGraph.Proofs.Resharing
import SealedGraph.Proofs.Revocation
import SealedGraph.Proofs.Refusal
import SealedGraph.Proofs.SharedLists
import SealedGraph.Proofs.Seals
import SealedGraph.Proofs.Secrecy
import SealedGraph.Proofs.Interleaving
import SealedGraph.Proofs.Registry.Mailbox
import SealedGraph.Proofs.Registry.Sets
import SealedGraph.Proofs.Store.Action
import SealedGraph.Proofs.Store.Integrity
import SealedGraph.Proofs.Store.Usernames
import SealedGraph.Proofs.Http.Mediation
import SealedGraph.Proofs.Http.Names
import SealedGraph.Proofs.Store.Reach
import SealedGraph.Proofs.Store.Search
import SealedGraph.Proofs.Store.Roots
import SealedGraph.Proofs.Store.Edges
import SealedGraph.Proofs.Store.Batch
import SealedGraph.Proofs.Store.Repeats
import SealedGraph.Proofs.Store.Atomic
import SealedGraph.Proofs.Text.Decimal
import SealedGraph.Proofs.Gate
import SealedGraph.Proofs.Lockout
import SealedGraph.Proofs.Request.Drafts
import SealedGraph.Proofs.Submission
import SealedGraph.Proofs.Recipients
import SealedGraph.Proofs.Payload
import SealedGraph.Proofs.Permissions
import SealedGraph.Proofs.Node.Json
import SealedGraph.Proofs.Hash.Hmac
import SealedGraph.Proofs.Registry.Streaks
import SealedGraph.Proofs.Store.Whole
