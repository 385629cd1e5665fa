import Jukebox.Main
import Jukebox.Store.Edit
import Jukebox.Store.Memory
import Jukebox.Proofs.Keyed
import Jukebox.Proofs.Queue.Playlist
import Jukebox.Proofs.Json.Fields
import Jukebox.Proofs.Json.Numeral
import Jukebox.Proofs.Json.Parser
import Jukebox.Proofs.Json.Track
import Jukebox.Proofs.Queue.Chain
import Jukebox.Proofs.Queue.Check
import Jukebox.Proofs.Queue.Operations
import Jukebox.Proofs.Queue.Refinement
import Jukebox.Random.Draws
import Jukebox.Proofs.Rotation.Rotator
import Jukebox.Proofs.Memory.Invariants
import Jukebox.Proofs.Rotation.Encoding
import Jukebox.Proofs.Store.Changes
import Jukebox.Proofs.Store.Equivalence
import Jukebox.Proofs.Store.Exhaustion
import Jukebox.Proofs.Store.Integrity
import Jukebox.Proofs.Rotation.RoundRobinFairness
import Jukebox.Proofs.Rotation.Rounds
import Jukebox.Proofs.Store.FairServing
import Jukebox.Proofs.Store.Story
import Jukebox.Proofs.Memory.Alike
import Jukebox.Proofs.Memory.Parallel
import Jukebox.Proofs.Rotation.Derailed
import Jukebox.Proofs.Number.ReadBack
import Jukebox.Proofs.Rotation.Storage
import Jukebox.Proofs.Store.Atomicity
import Jukebox.Proofs.Store.WriterKept
import Jukebox.Proofs.Store.Damage
import Jukebox.Proofs.Store.Interference
import Jukebox.Proofs.Json.Indented
import Jukebox.Proofs.Json.Records
import Jukebox.Proofs.Queue.Rebuilding
import Jukebox.Requests
import Jukebox.Proofs.Store.VetoSpacing
import Jukebox.Proofs.Party.Broadcasts
import Jukebox.Proofs.Rotation.RoundRobinSearch
import Jukebox.Proofs.Rotation.Waiting
import Jukebox.Proofs.Store.RowQueues
import Jukebox.Proofs.History.VetoRule
import Jukebox.Proofs.Store.VetoWindow
import Jukebox.Proofs.Party.VetoOutcomes
import Jukebox.Proofs.Store.Searching
import Jukebox.Proofs.Catalog
