import Jukebox.Party

/-!
# Requests at a party

Everything that can be asked of a party, one request after another. A request that fails does
not keep later ones from being answered.
-/

namespace Jukebox
namespace Party

inductive Request
  | register (id : UserId) (name : String)
  | createRoom (name : String) (kind : RotatorKind) (codes : Nat → RoomId) (seed : Nat)
  | join (room : RoomId) (user : UserId)
  /-- Adds a track of the catalog as a new entry, behind another one or in front. -/
  | addTrack (queue : QueueId) (track : TrackId) (after : Option EntryId) (entry : EntryId)
  | removeTrack (queue : QueueId) (entry : EntryId)
  | nextTrack (room : RoomId) (now : Timestamp)
  | veto (room : RoomId) (user : UserId) (now : Timestamp)
  | room (id : RoomId)
  | members (room : RoomId)
  | history (room : RoomId)
  | searchRooms (query : String)
  | listTracks (queue : QueueId) (filter : QueueFilter)
  | searchTracks (query : String)

inductive Response
  | reply (reply : Reply)
  | replaced (veto : Veto)
  | found (tracks : List Track)
  deriving DecidableEq

variable {σ : Type} [Store σ]

/-- Does what a request asks for. -/
def perform : Request → PartyAction σ Response
  | .register id name => (fun user => .reply (.user user)) <$> register id name
  | .createRoom name kind codes seed =>
    (fun room => .reply (.room room)) <$> createRoom name kind codes seed
  | .join room user => (fun user => .reply (.user user)) <$> join room user
  | .addTrack queue track after entry =>
    (fun entry => .reply (.entry entry)) <$> addTrack queue track after entry
  | .removeTrack queue entry => (fun _ => .reply .done) <$> removeTrack queue entry
  | .nextTrack room now =>
    (fun served => .reply (.served served.1 served.2)) <$> nextTrack room now
  | .veto room user now => .replaced <$> veto room user now
  | .room id => (fun room => .reply (.room room)) <$> room id
  | .members room => (fun users => .reply (.users users)) <$> members room
  | .history room => (fun entries => .reply (.history entries)) <$> history room
  | .searchRooms query => (fun rooms => .reply (.rooms rooms)) <$> searchRooms query
  | .listTracks queue filter =>
      (fun tracks => .reply (.tracks tracks)) <$> listTracks queue filter
  | .searchTracks query => .found <$> searchTracks query

/-- Answers one request: the response, and the party afterwards. -/
def step (party : Party σ) (request : Request) : Except PartyError Response × Party σ :=
  run (perform request) party

/-- Answers requests one after another, whether they fail or not. -/
def runAll (party : Party σ) : List Request → List (Except PartyError Response) × Party σ
  | [] => ([], party)
  | request :: rest =>
    let (answer, party) := step party request
    let (answers, party) := runAll party rest
    (answer :: answers, party)

end Party
end Jukebox
