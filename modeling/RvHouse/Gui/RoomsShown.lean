import RvHouse.Gui.PrevModel
import RvHouse.Gui.RoomsView

/-!
# What the view of the rooms shows

The view of the rooms beside the whole application: messages of both groups in any order, filtered
or not, requests to join, and places that are reserved in the model behind the back of the view.

`showsModel_exec`: after every run there is at most one item for each room with an id (none while
nobody is in a new room), the map holds no pointer to a deleted item, each feed of an item is of a
group that has the room, and the topic, the laps, the pickups and the lock are those that the model
has now. (The number of players and the name of the host may be old: the view does not look at every
update of a user.)
`announced_of_shown`: the observer, who writes the coming and going of rooms into the chat, is told
of each once.

A message is first taken in by the model, and the view then looks at the room and the group that it
is about. In between, the items are sound but for that feed (`RoomItem.Sound`). The main window hears
of a message before the others and opens no box before its view of the rooms has seen it, so that the
view sees the messages in the order in which the model takes them in, also when a later one comes in
the box of another window.
-/

namespace RvHouse

open Std MultiFeed ModelHouse

/-! ## At most one item for each room -/

/-- The map and the tree fit together: the map holds pointers to living items, each room with an id
is found by it, and its item has a feed. -/
structure RoomsView.WF (v : RoomsView) : Prop where
  below : ∀ p item, v.items[p]? = some item → p < v.made
  dropped : ∀ p ∈ v.roomItemMap.dropList, p < v.made
  mapped : ∀ rid p, v.roomItemMap.idMap[rid]? = some p →
    rid ≠ "" ∧ p ∉ v.roomItemMap.dropList ∧ ∃ item, v.items[p]? = some item ∧ item.roomId = rid
  found : ∀ p item, v.items[p]? = some item → item.roomId ≠ "" → p ∉ v.roomItemMap.dropList →
    v.roomItemMap.idMap[item.roomId]? = some p ∧ ∃ grp, grp ∈ item.roomFeed

/-- An item shows the topic, the laps, the pickups and the lock that the model has now. -/
structure RoomItem.Fresh (env : RoomsEnv) (hm : ModelHouse) (item : RoomItem) : Prop where
  topic : item.topic = item.valueOf env hm (·.topic)
  laps : item.laps = item.valueOf env hm fun r => toString r.laps
  pickups : item.pickups = item.valueOf env hm fun r => RoomItem.boolToYesNoString env r.pickups
  locked : item.locked = item.hasLock env hm

/-- The feeds of an item are of its room and of groups that have it, but for the feed `x`, and what
it shows is fresh, unless it has that feed. -/
structure RoomItem.Sound (x : Option (String × Int)) (env : RoomsEnv) (hm : ModelHouse)
    (item : RoomItem) : Prop where
  feeds : ∀ (grp : Int) rid, item.roomFeed[grp]? = some rid → rid = item.roomId ∧
    ((hm.roomFindIn rid grp).isSome ∨ x = some (rid, grp))
  fresh : item.Fresh env hm ∨ ∃ grp, x = some (item.roomId, grp)

/-- The news says that a room of this id has come. -/
def RoomNews.adds (rid : String) : RoomNews → Bool
  | .added r => r.id == rid
  | .removed _ => false

/-- The news says that a room of this id has gone. -/
def RoomNews.removes (rid : String) : RoomNews → Bool
  | .added _ => false
  | .removed r => r.id == rid

namespace RoomItem

variable {env : RoomsEnv} {hm hm' : ModelHouse} {item : RoomItem}

theorem fresh_resolveColumns (item : RoomItem) : (item.resolveColumns env hm).Fresh env hm :=
  ⟨rfl, rfl, rfl, rfl⟩

theorem fresh_updateRoomState (item : RoomItem) : (item.updateRoomState env hm).Fresh env hm :=
  ⟨rfl, rfl, rfl, rfl⟩

/-- A model with the same rooms in the feeds of the item shows the same. -/
theorem valueOf_congr
    (h : ∀ (grp : Int) rid, item.roomFeed[grp]? = some rid →
      hm'.roomFindIn rid grp = hm.roomFindIn rid grp)
    (hkeys : hm'.groups.keys = hm.groups.keys) (f : Room → String) :
    item.valueOf env hm' f = item.valueOf env hm f := by
  refine value_congr _ (fun grp rid hrid => ?_) hkeys
  rw [h grp rid hrid]

theorem hasLock_congr
    (h : ∀ (grp : Int) rid, item.roomFeed[grp]? = some rid →
      hm'.roomFindIn rid grp = hm.roomFindIn rid grp) :
    item.hasLock env hm' = item.hasLock env hm := by
  have hvalues : values item.roomFeed
        (roomValueAccessor hm' fun r => boolToYesNoString env r.hasPassword) () =
      values item.roomFeed
        (roomValueAccessor hm fun r => boolToYesNoString env r.hasPassword) () := by
    refine values_congr fun grp rid hrid => ?_
    rw [h grp rid hrid]
  simp only [hasLock, hvalues]

theorem Fresh.congr (hi : item.Fresh env hm)
    (h : ∀ (grp : Int) rid, item.roomFeed[grp]? = some rid →
      hm'.roomFindIn rid grp = hm.roomFindIn rid grp)
    (hkeys : hm'.groups.keys = hm.groups.keys) : item.Fresh env hm' where
  topic := hi.topic.trans (valueOf_congr h hkeys _).symm
  laps := hi.laps.trans (valueOf_congr h hkeys _).symm
  pickups := hi.pickups.trans (valueOf_congr h hkeys _).symm
  locked := hi.locked.trans (hasLock_congr h).symm

/-- A model that differs in the feed `x` only. -/
theorem Sound.of_model {x : Option (String × Int)} (hi : item.Sound none env hm)
    (h : ∀ rid grp, x ≠ some (rid, grp) → hm'.roomFindIn rid grp = hm.roomFindIn rid grp)
    (hkeys : hm'.groups.keys = hm.groups.keys) : item.Sound x env hm' where
  feeds grp rid hrid := by
    obtain ⟨heq, hsome⟩ := hi.feeds grp rid hrid
    refine ⟨heq, ?_⟩
    by_cases hx : x = some (rid, grp)
    · exact .inr hx
    · rw [h rid grp hx]
      exact .inl (hsome.resolve_right (by simp))
  fresh := by
    by_cases hx : ∃ grp, x = some (item.roomId, grp)
    · exact .inr hx
    · refine .inl ((hi.fresh.resolve_right (by simp)).congr ?_ hkeys)
      intro grp rid hrid
      obtain rfl : rid = item.roomId := (hi.feeds grp rid hrid).1
      exact h _ grp fun hx' => hx ⟨grp, hx'⟩

variable {x : Option (String × Int)} {rid : String} {grp : Int}

/-- A message about a feed leaves the items of other rooms as sound as they were. -/
theorem Sound.of_ne (hx : x = none ∨ x = some (rid, grp)) (hi : item.Sound x env hm)
    (hne : item.roomId ≠ rid) : item.Sound none env hm := by
  rcases hx with rfl | rfl
  · exact hi
  · refine ⟨fun grp' rid' hrid => ?_, .inl (hi.fresh.resolve_right fun ⟨grp', hx⟩ => ?_)⟩
    · obtain ⟨heq, hsome⟩ := hi.feeds grp' rid' hrid
      refine ⟨heq, .inl (hsome.resolve_right fun hx => hne ?_)⟩
      rw [← heq, (Prod.mk.inj (Option.some.inj hx)).1]
    · exact hne (Prod.mk.inj (Option.some.inj hx)).1.symm

/-- The feeds that are not the one in question. -/
theorem Sound.feed_of_ne (hx : x = none ∨ x = some (item.roomId, grp)) (hi : item.Sound x env hm)
    {grp' : Int} {rid' : String} (hrid : item.roomFeed[grp']? = some rid') (hne : grp' ≠ grp) :
    rid' = item.roomId ∧ ((hm.roomFindIn rid' grp').isSome ∨ none = some (rid', grp')) := by
  obtain ⟨heq, hsome⟩ := hi.feeds grp' rid' hrid
  refine ⟨heq, .inl (hsome.resolve_right fun hx' => ?_)⟩
  rcases hx with rfl | rfl
  · cases hx'
  · exact hne (Prod.mk.inj (Option.some.inj hx')).2.symm

/-- The room is in the model, and the item is given its feed. -/
theorem Sound.updated (hx : x = none ∨ x = some (item.roomId, grp)) (hi : item.Sound x env hm)
    (hr : (hm.roomFindIn item.roomId grp).isSome) :
    ((item.room item.roomId grp).updateRoomState env hm).Sound none env hm where
  feeds grp' rid' hrid := by
    have hrid' : (item.roomFeed.insert grp item.roomId)[grp']? = some rid' := hrid
    rw [TreeMap.getElem?_insert] at hrid'
    split at hrid'
    · rename_i heq
      obtain rfl : grp = grp' := by simpa using heq
      obtain rfl := Option.some.inj hrid'
      exact ⟨rfl, .inl hr⟩
    · rename_i hne
      exact hi.feed_of_ne hx hrid' fun heq => hne (by simp [heq])
  fresh := .inl (fresh_updateRoomState _)

/-- The item loses the feed. -/
theorem Sound.removed (hx : x = none ∨ x = some (item.roomId, grp)) (hi : item.Sound x env hm) :
    ((item.roomRemove grp).1.resolveColumns env hm).Sound none env hm where
  feeds grp' rid' hrid := by
    have hrid' : (item.roomFeed.erase grp)[grp']? = some rid' := hrid
    rw [TreeMap.getElem?_erase] at hrid'
    split at hrid'
    · cases hrid'
    · rename_i hne
      exact hi.feed_of_ne hx hrid' fun heq => hne (by simp [heq])
  fresh := .inl (fresh_resolveColumns _)

end RoomItem

namespace RoomsView

variable {env : RoomsEnv} {hm hm' : ModelHouse} {v : RoomsView} {x : Option (String × Int)}

/-- What is true of each item of a room with an id that is not about to be deleted. -/
def Each (P : RoomItem → Prop) (v : RoomsView) : Prop :=
  ∀ p item, v.items[p]? = some item → item.roomId ≠ "" → p ∉ v.roomItemMap.dropList → P item

theorem wf_init : ({} : RoomsView).WF where
  below p item h := by simp at h
  dropped p h := by cases h
  mapped rid p h := by simp at h
  found p item h := by simp at h

theorem getElem?_modify (p : ℕ) (f : RoomItem → RoomItem) (q : ℕ) :
    (v.modify p f).items[q]? = if p = q then (v.items[q]?).map f else v.items[q]? := by
  simp only [modify, TreeMap.getElem?_modify, LawfulEqOrd.compare_eq_iff_eq]
  split
  · rename_i h
    rw [h]
  · rfl

/-- To write through a pointer keeps the order of things when the item keeps its id and a feed. -/
theorem WF.modify (h : v.WF) (p : ℕ) {f : RoomItem → RoomItem}
    (hid : ∀ item, (f item).roomId = item.roomId)
    (hfeed : ∀ item, v.items[p]? = some item → ∃ grp, grp ∈ (f item).roomFeed) :
    (v.modify p f).WF where
  below q item hq := by
    rw [getElem?_modify] at hq
    split at hq
    · obtain ⟨item₀, hq₀, -⟩ := Option.map_eq_some_iff.1 hq
      exact h.below q item₀ hq₀
    · exact h.below q item hq
  dropped := h.dropped
  mapped rid q hq := by
    obtain ⟨hne, hdrop, item, hitem, hrid⟩ := h.mapped rid q hq
    refine ⟨hne, hdrop, ?_⟩
    rw [getElem?_modify]
    split
    · exact ⟨f item, by rw [hitem, Option.map_some], (hid item).trans hrid⟩
    · exact ⟨item, hitem, hrid⟩
  found q item hq hne hdrop := by
    rw [getElem?_modify] at hq
    split at hq
    · rename_i hpq
      subst hpq
      obtain ⟨item₀, hq₀, rfl⟩ := Option.map_eq_some_iff.1 hq
      rw [hid] at hne ⊢
      exact ⟨(h.found p item₀ hq₀ hne hdrop).1, hfeed item₀ hq₀⟩
    · exact h.found q item hq hne hdrop

theorem Each.modify {P Q : RoomItem → Prop} (h : v.Each P) (p : ℕ) {f : RoomItem → RoomItem}
    (hid : ∀ item, (f item).roomId = item.roomId)
    (hf : ∀ item, v.items[p]? = some item → P item → Q (f item))
    (hrest : ∀ q item, v.items[q]? = some item → item.roomId ≠ "" →
      q ∉ v.roomItemMap.dropList → q ≠ p → P item → Q item) :
    (v.modify p f).Each Q := by
  intro q item hq hne hdrop
  rw [getElem?_modify] at hq
  split at hq
  · rename_i hpq
    subst hpq
    obtain ⟨item₀, hq₀, rfl⟩ := Option.map_eq_some_iff.1 hq
    exact hf item₀ hq₀ (h p item₀ hq₀ (hid item₀ ▸ hne) hdrop)
  · rename_i hpq
    exact hrest q item hq hne hdrop (Ne.symm hpq) (h q item hq hne hdrop)

/-! ## Updates and removals -/

theorem idMap_insert {m : RoomMap} {rid : String} (hf : m.find rid = none) (p : ℕ) (rid' : String) :
    (m.insert rid p).idMap[rid']? =
      if rid ≠ "" ∧ rid = rid' then some p else m.idMap[rid']? := by
  have hnot : rid ∉ m.idMap := fun h =>
    absurd (TreeMap.mem_iff_isSome_getElem?.1 h) (by rw [show m.idMap[rid]? = none from hf]; simp)
  unfold RoomMap.insert
  split
  · rename_i hne
    simp [TreeMap.getElem?_insertIfNew, hnot, hne]
  · rename_i hne
    rw [if_neg fun h => hne h.1]

@[simp] theorem dropList_insert (m : RoomMap) (rid : String) (p : ℕ) :
    (m.insert rid p).dropList = m.dropList := by
  unfold RoomMap.insert
  split <;> rfl

theorem getElem?_newRoom (r : Room) (grp : Int) (p : ℕ) :
    (v.newRoom env hm r grp).1.items[p]? =
      if v.made = p then
        some ((({ roomId := r.id } : RoomItem).room r.id grp).updateRoomState env hm)
      else v.items[p]? := by
  simp only [newRoom, TreeMap.getElem?_insert, LawfulEqOrd.compare_eq_iff_eq]

theorem WF.newRoom (h : v.WF) {r : Room} (hf : v.roomItemMap.find r.id = none) (grp : Int) :
    (v.newRoom env hm r grp).1.WF where
  below p item hp := by
    rw [getElem?_newRoom] at hp
    split at hp
    · rename_i heq
      exact heq ▸ Nat.lt_succ_self v.made
    · exact (h.below p item hp).trans (Nat.lt_succ_self v.made)
  dropped p hp := by
    rw [RoomsView.newRoom, dropList_insert] at hp
    exact (h.dropped p hp).trans (Nat.lt_succ_self v.made)
  mapped rid p hp := by
    have hp' : (v.roomItemMap.insert r.id v.made).idMap[rid]? = some p := hp
    rw [idMap_insert hf] at hp'
    rw [getElem?_newRoom, RoomsView.newRoom, dropList_insert]
    split at hp'
    · rename_i hrid
      obtain rfl := Option.some.inj hp'
      exact ⟨hrid.2 ▸ hrid.1, fun hd => (h.dropped _ hd).false, _, if_pos rfl, hrid.2⟩
    · obtain ⟨hne, hdrop, item, hitem, hrid⟩ := h.mapped rid p hp'
      exact ⟨hne, hdrop, item, (if_neg (h.below p item hitem).ne').trans hitem, hrid⟩
  found p item hp hne hdrop := by
    have hmap : (v.newRoom env hm r grp).1.roomItemMap.idMap[item.roomId]? =
        if r.id ≠ "" ∧ r.id = item.roomId then some v.made
        else v.roomItemMap.idMap[item.roomId]? := idMap_insert hf v.made item.roomId
    rw [RoomsView.newRoom, dropList_insert] at hdrop
    rw [getElem?_newRoom] at hp
    rw [hmap]
    split at hp
    · rename_i heq
      obtain rfl := Option.some.inj hp
      refine ⟨(if_pos ⟨hne, rfl⟩).trans (congrArg some heq), grp, ?_⟩
      simp [RoomItem.updateRoomState, RoomItem.resolveColumns, RoomItem.room]
    · obtain ⟨hfound, hfeed⟩ := h.found p item hp hne hdrop
      refine ⟨(if_neg fun hr => ?_).trans hfound, hfeed⟩
      have hnone : v.roomItemMap.idMap[item.roomId]? = none := hr.2 ▸ hf
      rw [hnone] at hfound
      cases hfound

/-- An update of a room that the model has in the group. -/
theorem WF.updateRoom (h : v.WF) (r : Room) (grp : Int) : (v.updateRoom env hm r grp).1.WF := by
  unfold RoomsView.updateRoom
  cases hf : v.roomItemMap.find r.id with
  | none =>
    dsimp only
    split
    · exact h.newRoom hf grp
    · exact h
  | some p =>
    refine h.modify p (fun _ => rfl) fun item _ => ⟨grp, ?_⟩
    simp [RoomItem.updateRoomState, RoomItem.resolveColumns, RoomItem.room]

/-- The room that a pointer of the map stands for. -/
theorem WF.roomId_of_find (h : v.WF) {rid : String} {p : ℕ} (hf : v.roomItemMap.find rid = some p)
    {item : RoomItem} (hp : v.items[p]? = some item) : item.roomId = rid := by
  obtain ⟨-, -, item', hp', hrid⟩ := h.mapped rid p hf
  rw [hp] at hp'
  exact Option.some.inj hp' ▸ hrid

/-- The map has one pointer for each room. -/
theorem WF.ne_of_find (h : v.WF) {rid : String} {p q : ℕ} (hf : v.roomItemMap.find rid = some p)
    {item : RoomItem} (hq : v.items[q]? = some item) (hne : item.roomId ≠ "")
    (hdrop : q ∉ v.roomItemMap.dropList) (hqp : q ≠ p) : item.roomId ≠ rid := by
  rintro rfl
  have hfound := (h.found q item hq hne hdrop).1
  exact hqp (Option.some.inj (hfound.symm.trans hf))

/-- Items of rooms that are not found are about to be deleted. -/
theorem WF.ne_of_find_none (h : v.WF) {rid : String} (hf : v.roomItemMap.find rid = none) {p : ℕ}
    {item : RoomItem} (hp : v.items[p]? = some item) (hne : item.roomId ≠ "")
    (hdrop : p ∉ v.roomItemMap.dropList) : item.roomId ≠ rid := by
  rintro rfl
  have hfound := (h.found p item hp hne hdrop).1
  rw [show v.roomItemMap.idMap[item.roomId]? = none from hf] at hfound
  cases hfound

theorem Each.updateRoom (h : v.WF) {r : Room} {grp : Int} (hx : x = none ∨ x = some (r.id, grp))
    (hs : v.Each (RoomItem.Sound x env hm)) (hr : (hm.roomFindIn r.id grp).isSome) :
    (v.updateRoom env hm r grp).1.Each (RoomItem.Sound none env hm) := by
  unfold RoomsView.updateRoom
  cases hf : v.roomItemMap.find r.id with
  | none =>
    have hold : v.Each (RoomItem.Sound none env hm) := fun p item hp hne hdrop =>
      (hs p item hp hne hdrop).of_ne hx (h.ne_of_find_none hf hp hne hdrop)
    dsimp only
    split
    · intro p item hp hne hdrop
      rw [getElem?_newRoom] at hp
      split at hp
      · obtain rfl := Option.some.inj hp
        have hempty : ({ roomId := r.id } : RoomItem).Sound (some (r.id, grp)) env hm :=
          ⟨fun grp' rid hrid => by simp at hrid, .inr ⟨grp, rfl⟩⟩
        exact hempty.updated (.inr rfl) hr
      · rw [RoomsView.newRoom, dropList_insert] at hdrop
        exact hold p item hp hne hdrop
    · exact hold
  | some p =>
    refine hs.modify p (fun _ => rfl) (fun item hp hi => ?_) fun q item hq hne hdrop hqp hi => ?_
    · have hid : item.roomId = r.id := h.roomId_of_find hf hp
      rw [← hid] at hx hr ⊢
      exact hi.updated hx hr
    · exact hi.of_ne hx (h.ne_of_find hf hq hne hdrop hqp)

theorem removeRoom_of_last {p : ℕ} {item : RoomItem} {r : Room} {grp : Int}
    (hf : v.roomItemMap.find r.id = some p) (hp : v.items[p]? = some item)
    (hlast : (item.roomRemove grp).2 = true) :
    v.removeRoom env hm r grp = ({ v.modify p fun item => (item.roomRemove grp).1 with
      roomItemMap := { idMap := v.roomItemMap.idMap.erase r.id
                       dropList := v.roomItemMap.dropList ++ [p] } }, [.removed r]) := by
  have hmap : v.roomItemMap.idMap[r.id]? = some p := hf
  simp [RoomsView.removeRoom, RoomMap.erase, hf, hmap, hp, hlast]

theorem removeRoom_of_not_last {p : ℕ} {item : RoomItem} {r : Room} {grp : Int}
    (hf : v.roomItemMap.find r.id = some p) (hp : v.items[p]? = some item)
    (hlast : ¬ (item.roomRemove grp).2 = true) :
    v.removeRoom env hm r grp =
      (v.modify p fun item => (item.roomRemove grp).1.resolveColumns env hm, []) := by
  simp [RoomsView.removeRoom, hf, hp, hlast]

theorem getElem?_modify_of_ne {p q : ℕ} (f : RoomItem → RoomItem) (h : q ≠ p) :
    (v.modify p f).items[q]? = v.items[q]? := by
  rw [getElem?_modify, if_neg (Ne.symm h)]

/-- An item that has lost its last feed leaves the map for the list. -/
theorem WF.drop (h : v.WF) {rid : String} {p : ℕ} (hf : v.roomItemMap.find rid = some p)
    (f : RoomItem → RoomItem) :
    WF { v.modify p f with
      roomItemMap := { idMap := v.roomItemMap.idMap.erase rid
                       dropList := v.roomItemMap.dropList ++ [p] } } := by
  obtain ⟨-, -, item₀, hp, hid⟩ := h.mapped rid p hf
  refine ⟨fun q item hq => ?_, fun q hq => ?_, fun rid' q hq => ?_, fun q item hq hne hdrop => ?_⟩
  · by_cases hqp : q = p
    · exact hqp ▸ h.below p item₀ hp
    · exact h.below q item ((getElem?_modify_of_ne f hqp).symm.trans hq)
  · rcases List.mem_append.1 hq with hq | hq
    · exact h.dropped q hq
    · exact List.mem_singleton.1 hq ▸ h.below p item₀ hp
  · simp only [TreeMap.getElem?_erase, LawfulEqOrd.compare_eq_iff_eq] at hq
    split at hq
    · cases hq
    · rename_i hrid
      obtain ⟨hne, hdrop, item, hitem, hid'⟩ := h.mapped rid' q hq
      have hqp : q ≠ p := by
        rintro rfl
        rw [hp] at hitem
        obtain rfl := Option.some.inj hitem
        exact hrid (hid.symm.trans hid')
      refine ⟨hne, ?_, item, (getElem?_modify_of_ne f hqp).trans hitem, hid'⟩
      simp [hdrop, hqp]
  · rw [List.mem_append, List.mem_singleton, not_or] at hdrop
    have hq' : v.items[q]? = some item := (getElem?_modify_of_ne f hdrop.2).symm.trans hq
    obtain ⟨hfound, hfeed⟩ := h.found q item hq' hne hdrop.1
    refine ⟨?_, hfeed⟩
    have hrid : item.roomId ≠ rid := h.ne_of_find hf hq' hne hdrop.1 hdrop.2
    simpa [TreeMap.getElem?_erase, Ne.symm hrid] using hfound

theorem WF.removeRoom (h : v.WF) (r : Room) (grp : Int) : (v.removeRoom env hm r grp).1.WF := by
  cases hf : v.roomItemMap.find r.id with
  | none => simpa [RoomsView.removeRoom, hf] using h
  | some p =>
    obtain ⟨hne, hdrop, item, hp, hid⟩ := h.mapped r.id p hf
    by_cases hlast : (item.roomRemove grp).2 = true
    · rw [removeRoom_of_last hf hp hlast]
      exact h.drop hf _
    · rw [removeRoom_of_not_last hf hp hlast]
      refine h.modify p (fun _ => rfl) fun item' hp' => ?_
      obtain rfl : item = item' := Option.some.inj (hp.symm.trans hp')
      have hsome : ¬ ∀ grp', grp' ∉ item.roomFeed.erase grp := fun hall =>
        hlast (TreeMap.isEmpty_iff_forall_not_mem.2 hall)
      exact not_forall_not.1 hsome

theorem Each.removeRoom (h : v.WF) {r : Room} {grp : Int} (hx : x = none ∨ x = some (r.id, grp))
    (hs : v.Each (RoomItem.Sound x env hm)) :
    (v.removeRoom env hm r grp).1.Each (RoomItem.Sound none env hm) := by
  cases hf : v.roomItemMap.find r.id with
  | none =>
    intro p item hp hne hdrop
    simp only [RoomsView.removeRoom, hf] at hp hdrop
    exact (hs p item hp hne hdrop).of_ne hx (h.ne_of_find_none hf hp hne hdrop)
  | some p =>
    obtain ⟨-, -, item, hp, hid⟩ := h.mapped r.id p hf
    by_cases hlast : (item.roomRemove grp).2 = true
    · rw [removeRoom_of_last hf hp hlast]
      intro q item' hq hne hdrop
      rw [List.mem_append, List.mem_singleton, not_or] at hdrop
      have hq' : v.items[q]? = some item' := (getElem?_modify_of_ne _ hdrop.2).symm.trans hq
      exact (hs q item' hq' hne hdrop.1).of_ne hx (h.ne_of_find hf hq' hne hdrop.1 hdrop.2)
    · rw [removeRoom_of_not_last hf hp hlast]
      refine hs.modify p (fun _ => rfl) (fun item' hp' hi => ?_)
        fun q item' hq hne hdrop hqp hi => ?_
      · have hid' : item'.roomId = r.id := h.roomId_of_find hf hp'
        exact hi.removed (hid' ▸ hx)
      · exact hi.of_ne hx (h.ne_of_find hf hq hne hdrop hqp)

theorem getElem?_foldl_erase (items : TreeMap ℕ RoomItem) (ps : List ℕ) (q : ℕ) :
    (ps.foldl (·.erase ·) items)[q]? = if q ∈ ps then none else items[q]? := by
  induction ps generalizing items with
  | nil => simp
  | cons p ps ih =>
    rw [List.foldl_cons, ih, TreeMap.getElem?_erase]
    simp only [LawfulEqOrd.compare_eq_iff_eq, List.mem_cons, @eq_comm _ q p]
    by_cases hq : q ∈ ps <;> simp [hq]

theorem getElem?_removeDropped (q : ℕ) :
    v.removeDropped.items[q]? = if q ∈ v.roomItemMap.dropList then none else v.items[q]? :=
  getElem?_foldl_erase v.items v.roomItemMap.dropList q

theorem WF.removeDropped (h : v.WF) : v.removeDropped.WF := by
  have hlive : ∀ q item, v.removeDropped.items[q]? = some item →
      q ∉ v.roomItemMap.dropList ∧ v.items[q]? = some item := by
    intro q item hq
    rw [getElem?_removeDropped] at hq
    split at hq
    · cases hq
    · rename_i hdrop
      exact ⟨hdrop, hq⟩
  refine ⟨fun q item hq => h.below q item (hlive q item hq).2, fun q hq => (List.not_mem_nil hq).elim,
    fun rid q hq => ?_, fun q item hq hne _ => ?_⟩
  · obtain ⟨hne, hdrop, item, hitem, hid⟩ := h.mapped rid q hq
    refine ⟨hne, by simp [RoomsView.removeDropped], item, ?_, hid⟩
    rw [getElem?_removeDropped, if_neg hdrop, hitem]
  · exact h.found q item (hlive q item hq).2 hne (hlive q item hq).1

theorem Each.removeDropped {P : RoomItem → Prop} (hs : v.Each P) : v.removeDropped.Each P := by
  intro q item hq hne _
  rw [getElem?_removeDropped] at hq
  split at hq
  · cases hq
  · rename_i hdrop
    exact hs q item hq hne hdrop

/-! ## Calls -/

/-- The number of items that the map holds for the room. -/
def held (v : RoomsView) (rid : String) : ℕ := if rid ∈ v.roomItemMap.idMap then 1 else 0

/-- What a call leaves behind: a view in order, sound items, and news that account for the items of
each room. -/
structure Kept (env : RoomsEnv) (hm : ModelHouse) (v : RoomsView)
    (r : RoomsView × List RoomNews) : Prop where
  wf : r.1.WF
  sound : r.1.Each (RoomItem.Sound none env hm)
  tally : ∀ rid, rid ≠ "" →
    r.2.countP (RoomNews.adds rid) + v.held rid = r.2.countP (RoomNews.removes rid) + r.1.held rid

theorem Kept.idle (h : v.WF) (hs : v.Each (RoomItem.Sound none env hm)) : Kept env hm v (v, []) :=
  ⟨h, hs, fun _ _ => rfl⟩

theorem Kept.append {v' : RoomsView} {out : List RoomNews} {r : RoomsView × List RoomNews}
    (h : Kept env hm v (v', out)) (h' : Kept env hm v' r) :
    Kept env hm v (r.1, out ++ r.2) := by
  refine ⟨h'.wf, h'.sound, fun rid hrid => ?_⟩
  have hfirst := h.tally rid hrid
  have hsecond := h'.tally rid hrid
  simp only [List.countP_append] at hfirst ⊢
  omega

theorem Kept.removeDropped {r : RoomsView × List RoomNews} (h : Kept env hm v r) :
    Kept env hm v (r.1.removeDropped, r.2) :=
  ⟨h.wf.removeDropped, h.sound.removeDropped, h.tally⟩

theorem kept_updateRoom (h : v.WF) {r : Room} {grp : Int} (hx : x = none ∨ x = some (r.id, grp))
    (hs : v.Each (RoomItem.Sound x env hm)) (hr : (hm.roomFindIn r.id grp).isSome) :
    Kept env hm v (v.updateRoom env hm r grp) := by
  refine ⟨h.updateRoom r grp, hs.updateRoom h hx hr, fun rid hrid => ?_⟩
  unfold RoomsView.updateRoom
  cases hf : v.roomItemMap.find r.id with
  | none =>
    dsimp only
    split
    · have hmem : rid ∈ (v.roomItemMap.insert r.id v.made).idMap ↔
          rid ∈ v.roomItemMap.idMap ∨ r.id = rid := by
        rw [TreeMap.mem_iff_isSome_getElem?, TreeMap.mem_iff_isSome_getElem?, idMap_insert hf]
        split
        · rename_i heq
          simp [heq.2]
        · rename_i hne
          rw [not_and] at hne
          exact ⟨.inl, fun h => h.elim id fun heq => absurd heq (hne (heq ▸ hrid))⟩
      have hnone : r.id = rid → rid ∉ v.roomItemMap.idMap := by
        rintro rfl hin
        rw [TreeMap.mem_iff_isSome_getElem?, show v.roomItemMap.idMap[r.id]? = none from hf] at hin
        cases hin
      by_cases heq : r.id = rid
      · subst heq
        simp [RoomsView.newRoom, held, hmem, RoomNews.adds, RoomNews.removes, hnone rfl]
      · simp [RoomsView.newRoom, held, hmem, RoomNews.adds, RoomNews.removes, heq]
    · rfl
  | some p => rfl

theorem kept_removeRoom (h : v.WF) {r : Room} {grp : Int} (hx : x = none ∨ x = some (r.id, grp))
    (hs : v.Each (RoomItem.Sound x env hm)) : Kept env hm v (v.removeRoom env hm r grp) := by
  refine ⟨h.removeRoom r grp, hs.removeRoom h hx, fun rid hrid => ?_⟩
  cases hf : v.roomItemMap.find r.id with
  | none => simp [RoomsView.removeRoom, hf]
  | some p =>
    obtain ⟨-, -, item, hp, -⟩ := h.mapped r.id p hf
    have hin : r.id ∈ v.roomItemMap.idMap := by
      rw [TreeMap.mem_iff_isSome_getElem?, show v.roomItemMap.idMap[r.id]? = some p from hf]
      rfl
    by_cases hlast : (item.roomRemove grp).2 = true
    · rw [removeRoom_of_last hf hp hlast]
      by_cases heq : r.id = rid
      · subst heq
        simp [held, RoomNews.adds, RoomNews.removes, hin]
      · simp [held, RoomNews.adds, RoomNews.removes, heq]
    · rw [removeRoom_of_not_last hf hp hlast]
      rfl

theorem roomId_of_roomFindIn {rid : String} {grp : Int} {r : Room}
    (hr : hm.roomFindIn rid grp = some r) : r.id = rid := by
  obtain ⟨g, -, hg⟩ := Option.bind_eq_some_iff.1 hr
  exact House.id_of_roomFind hg

theorem kept_updateRoomById (h : v.WF) (hs : v.Each (RoomItem.Sound none env hm)) (rid : String)
    (grp : Int) : Kept env hm v (v.updateRoomById env hm rid grp) := by
  unfold RoomsView.updateRoomById
  cases hri : hm.roomFindIn rid grp with
  | none => exact .idle h hs
  | some ri =>
    have hid : ri.id = rid := roomId_of_roomFindIn hri
    exact kept_updateRoom h (.inl rfl) hs (by rw [hid, hri]; rfl)

theorem kept_updateRoomsById (h : v.WF) (hs : v.Each (RoomItem.Sound none env hm)) (grp : Int)
    (rids : List String) : Kept env hm v (v.updateRoomsById env hm grp rids) := by
  induction rids generalizing v with
  | nil => exact .idle h hs
  | cons rid rids ih =>
    have hfirst := kept_updateRoomById h hs rid grp
    exact hfirst.append (ih hfirst.wf hfirst.sound)

/-! ## Messages -/

theorem kept_handleUserUpdate (h : v.WF) (hs : v.Each (RoomItem.Sound none env hm))
    {hmp : ModelHouse} {u : User} {grp : Int} {r : RoomsView × List RoomNews}
    (hr : v.handleUserUpdate env hm hmp u grp = some r) : Kept env hm v r := by
  obtain ⟨-, -, hr⟩ := Option.bind_eq_some_iff.1 hr
  obtain ⟨-, -, hr⟩ := Option.bind_eq_some_iff.1 hr
  split at hr
  · split at hr
    · cases hr
      exact .idle h hs
    · cases hr
      exact kept_updateRoomsById h hs grp _
  · cases hr
    exact kept_updateRoomById h hs _ grp
  · cases hr
    exact kept_updateRoomById h hs _ grp
  · cases hr
    exact .idle h hs

end RoomsView

/-! ## The rooms of the model -/

theorem GroupHouse.roomFind_handle_of_ne (g : GroupHouse) {m : Message} {rid : String}
    (h : m.aboutRoom ≠ some (rid, m.groupBase)) :
    (g.handle m).house.roomFind rid = g.house.roomFind rid := by
  rw [HouseEntry.roomFind_handle, Message.putRoom, if_neg h]

namespace ModelHouse

variable {hm hm' : ModelHouse}

/-- Models that know the same groups list them in the same order. -/
theorem keys_congr (h : ∀ grp, (hm'.houseFind grp).isSome = (hm.houseFind grp).isSome) :
    hm'.groups.keys = hm.groups.keys := by
  have hmem : ∀ grp, grp ∈ hm'.groups.keys ↔ grp ∈ hm.groups.keys := fun grp => by
    have hgrp := h grp
    rw [houseFind, houseFind] at hgrp
    rw [TreeMap.mem_keys, TreeMap.mem_keys, TreeMap.mem_iff_isSome_getElem?,
      TreeMap.mem_iff_isSome_getElem?, hgrp]
  have hperm : List.Perm hm'.groups.keys hm.groups.keys :=
    (List.perm_ext_iff_of_nodup TreeMap.nodup_keys TreeMap.nodup_keys).2 hmem
  refine hperm.eq_of_pairwise (fun a b _ _ hab hba => ?_) TreeMap.ordered_keys
    TreeMap.ordered_keys
  rw [compare_lt_iff_lt] at hab hba
  omega

theorem keys_handleModelUpdate {m : Message} (h : hm.handleModelUpdate m = some hm') :
    hm'.groups.keys = hm.groups.keys := by
  refine keys_congr fun grp => ?_
  rw [houseFind_handleModelUpdate h]
  split
  · exact Option.isSome_map
  · rfl

/-- A message changes no other room than its own. -/
theorem roomFindIn_handleModelUpdate {m : Message} (h : hm.handleModelUpdate m = some hm')
    {rid : String} {grp : Int} (hne : m.aboutRoom ≠ some (rid, grp)) :
    hm'.roomFindIn rid grp = hm.roomFindIn rid grp := by
  unfold roomFindIn
  rw [houseFind_handleModelUpdate h]
  split
  · rename_i hgrp
    subst hgrp
    cases hm.houseFind m.groupBase with
    | none => rfl
    | some g => exact g.roomFind_handle_of_ne hne
  · rfl

theorem roomFindIn_roomUpdate {r : Room} {grp : Int} (h : hm.roomUpdate r grp = some hm') :
    hm'.roomFindIn r.id grp = some r := by
  obtain ⟨g, hg, h⟩ := Option.bind_eq_some_iff.1 h
  obtain rfl := Option.some.inj h
  unfold roomFindIn
  rw [houseFind_insert, if_pos rfl]
  exact (g.roomFind_roomUpdate r r.id).trans (if_pos rfl)

end ModelHouse

namespace RoomsView

variable {env : RoomsEnv} {hm hm' hmp : ModelHouse} {v : RoomsView}

/-- The items stay sound in a model with the same rooms. -/
theorem Each.of_model {x : Option (String × Int)} (hs : v.Each (RoomItem.Sound none env hm))
    (h : ∀ rid grp, x ≠ some (rid, grp) → hm'.roomFindIn rid grp = hm.roomFindIn rid grp)
    (hkeys : hm'.groups.keys = hm.groups.keys) : v.Each (RoomItem.Sound x env hm') :=
  fun p item hp hne hdrop => (hs p item hp hne hdrop).of_model h hkeys

theorem kept_of_user (h : v.WF) (hs : v.Each (RoomItem.Sound none env hm)) (hmp : ModelHouse)
    (o : Option User) (grp : Int) :
    Kept env hm v ((do
      let u ← o
      let (v, out) ← v.handleUserUpdate env hm hmp u grp
      return (v.removeDropped, out)).getD (v, [])) := by
  cases o with
  | none => exact .idle h hs
  | some u =>
    cases hr : v.handleUserUpdate env hm hmp u grp with
    | none => simpa [hr] using Kept.idle h hs
    | some r => simpa [hr] using (kept_handleUserUpdate h hs hr).removeDropped

/-- **What the view makes of a message** that the model has taken in. -/
theorem kept_handleMessage (h : v.WF) (hs : v.Each (RoomItem.Sound none env hm)) {m : Message}
    (hupd : hm.handleModelUpdate m = some hm') (hmp : ModelHouse) :
    Kept env hm' v ((v.handleMessage env hm' hmp m).getD (v, [])) := by
  have hs' : v.Each (RoomItem.Sound m.aboutRoom env hm') :=
    hs.of_model (fun _ _ hne => ModelHouse.roomFindIn_handleModelUpdate hupd hne)
      (ModelHouse.keys_handleModelUpdate hupd)
  obtain ⟨id, sender, seq, gb, body⟩ := m
  cases id with
  | user => exact kept_of_user h (by cases body <;> exact hs') hmp body.asUser gb
  | userLeft => exact kept_of_user h (by cases body <;> exact hs') hmp body.asUser gb
  | room =>
    cases body with
    | room r =>
      have hput : hm.roomUpdate r gb = some hm' := by
        simpa [ModelHouse.handleModelUpdate, ModelHouse.handleUserModelUpdate,
          ModelHouse.handleRoomModelUpdate] using hupd
      have hr : hm'.roomFindIn r.id gb = some r := ModelHouse.roomFindIn_roomUpdate hput
      exact (kept_updateRoom h (.inr rfl) hs' (by rw [hr]; rfl)).removeDropped
    | _ => exact .idle h hs'
  | roomRemove =>
    cases body with
    | room r => exact (kept_removeRoom h (.inr rfl) hs').removeDropped
    | _ => exact .idle h hs'
  | _ => cases body <;> exact .idle h hs'

/-- No item waits to be deleted between two messages. -/
theorem dropList_handleMessage (env : RoomsEnv) (hd : v.roomItemMap.dropList = [])
    (hm hmp : ModelHouse) (m : Message) :
    ((v.handleMessage env hm hmp m).getD (v, [])).1.roomItemMap.dropList = [] := by
  have huser (o : Option User) : ((do
      let u ← o
      let (v, out) ← v.handleUserUpdate env hm hmp u m.groupBase
      return (v.removeDropped, out)).getD (v, [])).1.roomItemMap.dropList = [] := by
    cases o with
    | none => exact hd
    | some u =>
      cases hr : v.handleUserUpdate env hm hmp u m.groupBase <;> simp [hr, hd, removeDropped]
  unfold handleMessage
  split
  · exact huser _
  · exact huser _
  · cases m.body.asRoom <;> simp [hd, removeDropped]
  · cases m.body.asRoom <;> simp [hd, removeDropped]
  · exact hd

end RoomsView

/-! ## The application -/

/-- `house_app` with the view of the rooms. -/
structure RoomsDesk where
  app : HouseApp
  view : RoomsView := {}

namespace RoomsDesk

variable (env : RoomsEnv)

/-- One event. The view is given a message that is not filtered when the model has taken it in, and
before the rest of the application. -/
def step (s : RoomsDesk) (e : AppEvent) : RoomsDesk × List RoomNews :=
  let app := (s.app.step e).1
  match e with
  | .message m =>
    if s.app.ended ∨ (filterMessage m s.app.client.filterMap).1 then ({ s with app }, [])
    else
      match s.app.client.house.handleModelUpdate m with
      | none => ({ s with app }, [])
      | some house =>
        let (view, out) := (s.view.handleMessage env house s.app.prev m).getD (s.view, [])
        (⟨app, view⟩, out)
  | _ => ({ s with app }, [])

/-- The desk as a machine that tells the observer of the rooms. -/
def machine : Mealy RoomsDesk AppEvent RoomNews := ⟨step env⟩

/-- The desk at the start. -/
def init (u : User) : RoomsDesk := ⟨HouseApp.init u, {}⟩

/-- The models and the view are in order, and the view shows what the model has. -/
structure Good (s : RoomsDesk) : Prop where
  app : s.app.Sound
  wf : s.view.WF
  dropped : s.view.roomItemMap.dropList = []
  sound : s.view.Each (RoomItem.Sound none env s.app.client.house)

variable {env}

/-- A message that is not taken in leaves the model. -/
theorem house_of_not_taken {s : HouseApp} {m : Message}
    (h : (s.ended ∨ (filterMessage m s.client.filterMap).1) ∨
      s.client.house.handleModelUpdate m = none) :
    (s.step (.message m)).1.client.house = s.client.house := by
  cases hrun : s.ended with
  | true => simp [HouseApp.step, hrun]
  | false =>
    cases hdup : (filterMessage m s.client.filterMap).1 with
    | true => simp [HouseApp.step, HouseApp.begins_of_dup hdup, hrun]
    | false =>
      have hupd : s.client.house.handleModelUpdate m = none := by simpa [hrun, hdup] using h
      simp [HouseApp.step, HouseApp.begins_of_throws hdup hupd, hrun]

theorem house_of_taken {s : HouseApp} {m : Message} {house : ModelHouse}
    (h : ¬ (s.ended ∨ (filterMessage m s.client.filterMap).1))
    (hupd : s.client.house.handleModelUpdate m = some house) :
    (s.step (.message m)).1.client.house = house := by
  rw [not_or, Bool.not_eq_true, Bool.not_eq_true] at h
  simp [HouseApp.step, HouseApp.begins_of_taken h.2 hupd, h.1]

/-- What does not take a message in leaves the rooms of the model. -/
theorem rooms_step {s : HouseApp} (hs : s.Sound) {e : AppEvent} (he : ∀ m, e ≠ .message m)
    (rid : String) (grp : Int) :
    (s.step e).1.client.house.roomFindIn rid grp = s.client.house.roomFindIn rid grp ∧
      ((s.step e).1.client.house.houseFind grp).isSome =
        (s.client.house.houseFind grp).isSome := by
  rcases HouseApp.step_cases hs e with ⟨hsame, -⟩ | ⟨m, hm, -⟩ | ⟨m, -, hdis, -⟩
  · rw [hsame]
    exact ⟨rfl, rfl⟩
  · exact absurd hm (he m)
  · rcases Client.dispatch_cases hdis with ⟨hsame, -⟩ | ⟨rid', hset, -⟩
    · rw [hsame]
      exact ⟨rfl, rfl⟩
    · exact ModelHouse.roomFindIn_setRoomId hset rid grp

/-- The view is not called. -/
theorem Good.step_unseen {s : RoomsDesk} (h : s.Good env) {e : AppEvent} (he : ∀ m, e ≠ .message m) :
    Good env { s with app := (s.app.step e).1 } := by
  have hrooms := rooms_step h.app he
  refine ⟨h.app.step e, h.wf, h.dropped, h.sound.of_model (fun rid grp _ => (hrooms rid grp).1) ?_⟩
  exact ModelHouse.keys_congr fun grp => (hrooms "" grp).2

/-- What a step keeps, and the news that it brings. -/
theorem good_step {s : RoomsDesk} (h : s.Good env) (e : AppEvent) :
    (s.step env e).1.Good env ∧ ∀ rid, rid ≠ "" →
      (s.step env e).2.countP (RoomNews.adds rid) + s.view.held rid =
        (s.step env e).2.countP (RoomNews.removes rid) + (s.step env e).1.view.held rid := by
  cases e with
  | handled =>
    have hunseen := h.step_unseen (e := .handled) (by simp)
    exact ⟨hunseen, fun _ _ => rfl⟩
  | ownUser self =>
    have hunseen := h.step_unseen (e := .ownUser self) (by simp)
    exact ⟨hunseen, fun _ _ => rfl⟩
  | message m =>
    have hkeep (hhouse : (s.app.step (.message m)).1.client.house = s.app.client.house) :
        Good env { s with app := (s.app.step (.message m)).1 } :=
      ⟨h.app.step _, h.wf, h.dropped, hhouse ▸ h.sound⟩
    by_cases hskip : s.app.ended ∨ (filterMessage m s.app.client.filterMap).1
    · simp only [step, if_pos hskip]
      exact ⟨hkeep (house_of_not_taken (.inl hskip)), fun _ _ => rfl⟩
    · simp only [step, if_neg hskip]
      cases hupd : s.app.client.house.handleModelUpdate m with
      | none => exact ⟨hkeep (house_of_not_taken (.inr hupd)), fun _ _ => rfl⟩
      | some house =>
        have hkept := RoomsView.kept_handleMessage h.wf h.sound hupd s.app.prev
        have hdrop := RoomsView.dropList_handleMessage env h.dropped house s.app.prev m
        have hhouse := house_of_taken hskip hupd
        exact ⟨⟨h.app.step _, hkept.wf, hdrop, hhouse.symm ▸ hkept.sound⟩, hkept.tally⟩

theorem good_init (u : User) : (init u).Good env where
  app := HouseApp.sound_init u
  wf := RoomsView.wf_init
  dropped := rfl
  sound p item hp := by simp [init] at hp

theorem good_exec (u : User) (es : List AppEvent) : ((machine env).exec (init u) es).Good env :=
  (machine env).invariant_all (I := Good env) (fun _ e h => (good_step h e).1) (good_init u) es

/-- The view shows at most one item for each room, and what it shows is true. -/
structure ShowsModel (env : RoomsEnv) (s : RoomsDesk) : Prop where
  /-- The map has no pointer to an item that is deleted. -/
  live : ∀ rid p, s.view.roomItemMap.find rid = some p →
    ∃ item, s.view.items[p]? = some item ∧ item.roomId = rid
  single : ∀ (p q : ℕ) (item item' : RoomItem), s.view.items[p]? = some item →
    s.view.items[q]? = some item' → item.roomId ≠ "" → item.roomId = item'.roomId → p = q
  seen : ∀ (p : ℕ) (item : RoomItem), s.view.items[p]? = some item → item.roomId ≠ "" →
    ∃ grp, grp ∈ item.roomFeed
  known : ∀ (p : ℕ) (item : RoomItem), s.view.items[p]? = some item → item.roomId ≠ "" →
    ∀ (grp : Int) rid, item.roomFeed[grp]? = some rid →
      rid = item.roomId ∧ ∃ r, s.app.client.house.roomFindIn rid grp = some r
  fresh : ∀ (p : ℕ) (item : RoomItem), s.view.items[p]? = some item → item.roomId ≠ "" →
    item.Fresh env s.app.client.house

/-- **The view shows the rooms of the model**, whatever messages come in and whatever places are
reserved: what is shown of a room is what the groups say of it now. -/
theorem showsModel_exec (env : RoomsEnv) (u : User) (es : List AppEvent) :
    ShowsModel env ((machine env).exec (init u) es) := by
  have h : ((machine env).exec (init u) es).Good env := good_exec u es
  generalize (machine env).exec (init u) es = s at h
  have hdrop : ∀ p, p ∉ s.view.roomItemMap.dropList := by simp [h.dropped]
  refine ⟨fun rid p hp => (h.wf.mapped rid p hp).2.2, fun p q item item' hp hq hne hid => ?_,
    fun p item hp hne => (h.wf.found p item hp hne (hdrop p)).2, fun p item hp hne grp rid hrid => ?_,
    fun p item hp hne => ?_⟩
  · have hfp := (h.wf.found p item hp hne (hdrop p)).1
    have hfq := (h.wf.found q item' hq (hid ▸ hne) (hdrop q)).1
    rw [hid, hfq] at hfp
    exact (Option.some.inj hfp).symm
  · obtain ⟨heq, hsome⟩ := (h.sound p item hp hne (hdrop p)).feeds grp rid hrid
    exact ⟨heq, Option.isSome_iff_exists.1 (hsome.resolve_right (by simp))⟩
  · exact (h.sound p item hp hne (hdrop p)).fresh.resolve_right (by simp)

theorem tally_exec {s : RoomsDesk} (h : s.Good env) (es : List AppEvent) {rid : String}
    (hrid : rid ≠ "") :
    ((machine env).trace s es).countP (RoomNews.adds rid) + s.view.held rid =
      ((machine env).trace s es).countP (RoomNews.removes rid) +
        ((machine env).exec s es).view.held rid := by
  induction es generalizing s with
  | nil => rfl
  | cons e es ih =>
    obtain ⟨hgood, hstep⟩ := good_step h e
    have hfirst : ((machine env).step s e).2.countP (RoomNews.adds rid) + s.view.held rid =
        ((machine env).step s e).2.countP (RoomNews.removes rid) +
          ((machine env).step s e).1.view.held rid := hstep rid hrid
    have hrest := ih (s := ((machine env).step s e).1) hgood
    rw [Mealy.trace_cons, Mealy.exec_cons, List.countP_append, List.countP_append]
    omega

/-- The room has an item in the view. -/
def Shown (s : RoomsDesk) (rid : String) : Prop :=
  ∃ (p : ℕ) (item : RoomItem), s.view.items[p]? = some item ∧ item.roomId = rid

theorem Good.shown_iff {s : RoomsDesk} (h : s.Good env) {rid : String} (hrid : rid ≠ "") :
    s.Shown rid ↔ rid ∈ s.view.roomItemMap.idMap := by
  rw [TreeMap.mem_iff_isSome_getElem?, Option.isSome_iff_exists]
  constructor
  · rintro ⟨p, item, hp, rfl⟩
    exact ⟨p, (h.wf.found p item hp hrid (by simp [h.dropped])).1⟩
  · rintro ⟨p, hp⟩
    obtain ⟨item, hitem, hid⟩ := (h.wf.mapped rid p hp).2.2
    exact ⟨p, item, hitem, hid⟩

/-- **The observer is told of each room** when it comes and when it goes: of a room that is shown it
has heard once more that it has come. -/
theorem announced_of_shown (env : RoomsEnv) (u : User) (es : List AppEvent) {rid : String}
    (hrid : rid ≠ "") :
    let news := (machine env).trace (init u) es
    let s := (machine env).exec (init u) es
    (s.Shown rid → news.countP (RoomNews.adds rid) = news.countP (RoomNews.removes rid) + 1) ∧
      (¬ s.Shown rid → news.countP (RoomNews.adds rid) = news.countP (RoomNews.removes rid)) := by
  intro news s
  have htally : news.countP (RoomNews.adds rid) + (init u).view.held rid =
      news.countP (RoomNews.removes rid) + s.view.held rid := tally_exec (good_init u) es hrid
  have hnone : (init u).view.held rid = 0 := by simp [init, RoomsView.held]
  rw [(good_exec u es).shown_iff hrid]
  refine ⟨fun hin => ?_, fun hout => ?_⟩
  · rwa [hnone, RoomsView.held, if_pos hin] at htally
  · rwa [hnone, RoomsView.held, if_neg hout] at htally

/-- A user goes into the room that it has made. -/
def openRoom (rid : String) : List AppEvent :=
  let u : User := { id := ⟨some ⟨2, 1⟩, "b"⟩, roomId := rid }
  [.message (.ofUser .user u 1 MsgId.dhtGroupBase.code), .handled,
    .message (.ofRoom .room { id := rid, ownerId := u.id } u.id 2 MsgId.dhtGroupBase.code), .handled]

theorem announced_of_shown_room :
    let news := (machine { yes := "yes", no := "no", statusToString := fun _ => "" }).trace
      (init {}) (openRoom "r")
    news.countP (RoomNews.adds "r") = news.countP (RoomNews.removes "r") + 1 := by
  have hitem : (((machine { yes := "yes", no := "no", statusToString := fun _ => "" }).exec
      (init {}) (openRoom "r")).view.items[0]?.map (·.roomId)) = some "r" := by decide +kernel
  obtain ⟨item, hp, hid⟩ := Option.map_eq_some_iff.1 hitem
  exact (announced_of_shown _ {} (openRoom "r") (by decide)).1 ⟨0, item, hp, hid⟩

end RoomsDesk

end RvHouse
