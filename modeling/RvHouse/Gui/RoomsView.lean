import RvHouse.MultiFeed.Values
import RvHouse.Networking.Worker

/-!
# The view of the rooms

`gui::view::rooms` shows one item for each room, whichever groups have it. `multi_feed::room_map`
holds pointers to the items: an item whose last feed goes is taken out of the map and waits in a
list until it is deleted. The items of the tree are kept here by their pointers, so that it can be
said that the map never holds a pointer to a deleted item (`RoomsView.WF`).
-/

namespace RvHouse

open Std MultiFeed

/-- What the view reads of the texts of the language and of the settings. -/
structure RoomsEnv where
  yes : String
  no : String
  /-- `user::status_to_string`. -/
  statusToString : Status → String
  allowStartedRaceJoin : Bool := true
  alwaysDisplayFeeds : Bool := false

/-- `view::room_item`, without its tip. -/
structure RoomItem where
  roomId : String
  roomFeed : TreeMap Int String := ∅
  topic : String := ""
  host : String := ""
  players : String := ""
  laps : String := ""
  pickups : String := ""
  locked : Bool := false
  disabled : Bool := false

/-- `multi_feed::room_map`; its `resolve` does nothing. -/
structure RoomMap where
  idMap : TreeMap String ℕ := ∅
  dropList : List ℕ := []

/-- What the observer is told. -/
inductive RoomNews where
  | added (r : Room)
  | removed (r : Room)
deriving DecidableEq

/-- `view::rooms`: the items of the tree by their pointers, of which `made` have been allocated. -/
structure RoomsView where
  items : TreeMap ℕ RoomItem := ∅
  made : ℕ := 0
  roomItemMap : RoomMap := {}

namespace RoomMap

/-- `room_map::find`. -/
def find (m : RoomMap) (rid : String) : Option ℕ := m.idMap[rid]?

/-- `room_map::erase`; its caller ignores the number of items erased. -/
def erase (m : RoomMap) (rid : String) : RoomMap :=
  match m.idMap[rid]? with
  | some p => { idMap := m.idMap.erase rid, dropList := m.dropList ++ [p] }
  | none => m

/-- `room_map::insert`; its caller ignores whether it inserted. -/
def insert (m : RoomMap) (rid : String) (p : ℕ) : RoomMap :=
  if rid ≠ "" then { m with idMap := m.idMap.insertIfNew rid p } else m

end RoomMap

namespace RoomItem

variable (env : RoomsEnv) (hm : ModelHouse)

/-- `room_item::room`. -/
def room (item : RoomItem) (id : String) (grp : Int) : RoomItem :=
  { item with roomFeed := item.roomFeed.insert grp id }

/-- `room_item::room_remove`; true when the room is to be removed for good. -/
def roomRemove (item : RoomItem) (grp : Int) : RoomItem × Bool :=
  ({ item with roomFeed := item.roomFeed.erase grp }, (item.roomFeed.erase grp).isEmpty)

/-- A value of the room in all feeds. -/
def valueOf (item : RoomItem) (f : Room → String) : String :=
  value env.alwaysDisplayFeeds hm item.roomFeed (roomValueAccessor hm f) ()

/-- `bool_to_yes_no_string`. -/
def boolToYesNoString (b : Bool) : String := if b then env.yes else env.no

/-- Whether `_resolve_columns` gives the item the icon of a lock. -/
def hasLock (item : RoomItem) : Bool :=
  let r := values item.roomFeed (roomValueAccessor hm fun r => boolToYesNoString env r.hasPassword) ()
  !(r.2 = env.no || r.1.isEmpty)

/-- `room_item::_resolve_columns`. -/
def resolveColumns (item : RoomItem) : RoomItem :=
  { item with
    topic := item.valueOf env hm (·.topic)
    host := value env.alwaysDisplayFeeds hm item.roomFeed
      (roomOwnerIdAccessor hm (userIdToString hm)) ()
    players := value env.alwaysDisplayFeeds hm item.roomFeed (playersSlashMax hm) ""
    laps := item.valueOf env hm fun r => toString r.laps
    pickups := item.valueOf env hm fun r => boolToYesNoString env r.pickups
    locked := item.hasLock env hm }

/-- `rooms::_update_room_state`: the item is disabled while its host plays, unless started races may
be joined. -/
def updateRoomState (item : RoomItem) : RoomItem :=
  let status := value env.alwaysDisplayFeeds hm item.roomFeed
    (roomOwnerIdAccessor hm (userIdToStatusString hm env.statusToString)) ()
  { item.resolveColumns env hm with
    disabled := !env.allowStartedRaceJoin && status == env.statusToString .playing }

end RoomItem

namespace RoomsView

variable (env : RoomsEnv) (hm : ModelHouse)

/-- The item is written through its pointer. -/
def modify (v : RoomsView) (p : ℕ) (f : RoomItem → RoomItem) : RoomsView :=
  { v with items := v.items.modify p f }

/-- `rooms::_new_room`. An item of a room without an id does not come into the map. -/
def newRoom (v : RoomsView) (r : Room) (grp : Int) : RoomsView × List RoomNews :=
  let item : RoomItem := { roomId := r.id }
  ({ items := v.items.insert v.made ((item.room r.id grp).updateRoomState env hm)
     made := v.made + 1
     roomItemMap := v.roomItemMap.insert r.id v.made }, [.added r])

/-- `rooms::_update_room(const room &, int)`. -/
def updateRoom (v : RoomsView) (r : Room) (grp : Int) : RoomsView × List RoomNews :=
  match v.roomItemMap.find r.id with
  | none => if 0 < hm.roomSize r.id then v.newRoom env hm r grp else (v, [])
  | some p => (v.modify p fun item => (item.room r.id grp).updateRoomState env hm, [])

/-- `rooms::_update_room(const id_type &, int)`. -/
def updateRoomById (v : RoomsView) (rid : String) (grp : Int) : RoomsView × List RoomNews :=
  match hm.roomFindIn rid grp with
  | some ri => v.updateRoom env hm ri grp
  | none => (v, [])

/-- `rooms::_remove_room`. -/
def removeRoom (v : RoomsView) (r : Room) (grp : Int) : RoomsView × List RoomNews :=
  match v.roomItemMap.find r.id with
  | none => (v, [])
  | some p =>
    if (v.items[p]?).any fun item => (item.roomRemove grp).2 then
      ({ v.modify p fun item => (item.roomRemove grp).1 with
         roomItemMap := v.roomItemMap.erase r.id }, [.removed r])
    else (v.modify p fun item => (item.roomRemove grp).1.resolveColumns env hm, [])

/-- `rooms::_remove_dropped`: the items that wait are deleted, and so leave the tree. -/
def removeDropped (v : RoomsView) : RoomsView :=
  { v with
    items := v.roomItemMap.dropList.foldl (·.erase ·) v.items
    roomItemMap := { v.roomItemMap with dropList := [] } }

/-- Updates of rooms one after the other. -/
def updateRoomsById (grp : Int) (v : RoomsView) : List String → RoomsView × List RoomNews
  | [] => (v, [])
  | rid :: rids =>
    let (v, out) := v.updateRoomById env hm rid grp
    let (v, out') := updateRoomsById grp v rids
    (v, out ++ out')

/-- `rooms::_handle_user_update`; `hmp` is the model before the message. -/
def handleUserUpdate (hmp : ModelHouse) (v : RoomsView) (u : User) (grp : Int) :
    Option (RoomsView × List RoomNews) := do
  let _ ← hm.houseFind grp
  let _ ← hmp.houseFind grp
  match hm.userFindIn u.id grp, hmp.userFindIn u.id grp with
  | some uic, some uip =>
    if uic.roomId = uip.roomId ∧ uic.status = uip.status then return (v, [])
    else return v.updateRoomsById env hm grp [uip.roomId, uic.roomId]
  | none, some uip => return v.updateRoomById env hm uip.roomId grp
  | some uic, none => return v.updateRoomById env hm uic.roomId grp
  | none, none => return (v, [])

/-- `rooms::handle_message`; `none` when a cast or a search throws. -/
def handleMessage (hmp : ModelHouse) (v : RoomsView) (m : Message) :
    Option (RoomsView × List RoomNews) :=
  match m.id with
  | .user | .userLeft => do
    let u ← m.body.asUser
    let (v, out) ← v.handleUserUpdate env hm hmp u m.groupBase
    return (v.removeDropped, out)
  | .room => do
    let r ← m.body.asRoom
    let (v, out) := v.updateRoom env hm r m.groupBase
    return (v.removeDropped, out)
  | .roomRemove => do
    let r ← m.body.asRoom
    let (v, out) := v.removeRoom env hm r m.groupBase
    return (v.removeDropped, out)
  | _ => some (v, [])

end RoomsView

end RvHouse
