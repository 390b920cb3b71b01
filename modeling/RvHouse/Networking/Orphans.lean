import RvHouse.Networking.Frame

/-!
# Rooms without an owner

A room enters the house with a room update and leaves it with its owner: when the owner's entry goes
or names another room, and only if the entry names the room at all. `noOrphans_iff_guarded` says
which runs keep every room with an owner in the house: those in which a new room comes from a node
in the house, and in which a node that goes owns no room but the one that its entry names
(`OwnersKnown`). `orphan_of_unnamed` is a run in which a host announces its room and goes before
its user update arrives.
-/

namespace RvHouse.Handler

/-- Every room is owned by the node of a user in the house. -/
def NoOrphans (h : House) : Prop :=
  ∀ id r, h.roomFind id = some r → ∃ n, r.ownerId.node = some n ∧ h.userFind (.ofNode n) ≠ none

/-- The rooms that `n` owns are those that its entry names. -/
def NamesItsRooms (h : House) (n : Node) : Prop :=
  ∀ id r, h.roomFind id = some r → r.ownerId.node = some n →
    ∃ ui, h.userFind (.ofNode n) = some ui ∧ ui.roomId = id ∧ id ≠ ""

/-- A new room comes from a node in the house, and a node that goes owns no room but the one that
its entry names. -/
def OwnersKnown (s : Handler) : Event → Prop
  | .nodeRemoved n => NamesItsRooms s.house n
  | .blockUsers m =>
    ∀ n : Node, (s.ipBlock.handleMessage m).isBlocked n.ip = true → NamesItsRooms s.house n
  | .dataReceived (.roomUpdate w) n _ =>
    s.ipBlock.isBlocked n.ip = false → w.id ≠ "" → s.house.roomFind w.id = none →
      s.house.userFind (.ofNode n) ≠ none
  | _ => True

theorem NoOrphans.of_sub {h h' : House} (ho : NoOrphans h)
    (hrooms : ∀ id r, h'.roomFind id = some r → h.roomFind id = some r)
    (husers : ∀ n, h.userFind (.ofNode n) ≠ none → h'.userFind (.ofNode n) ≠ none) :
    NoOrphans h' := by
  intro id r hr
  obtain ⟨n, hn, hu⟩ := ho id r (hrooms id r hr)
  exact ⟨n, hn, husers n hu⟩

/-! ## Nodes that go -/

/-- A node without an entry stays so, and its rooms stay. -/
theorem orphan_persists (seq : UInt32) {s : Handler} {n : Node} {id : String} {r : Room}
    (hr : s.house.roomFind id = some r) (hn : r.ownerId.node = some n)
    (hu : s.house.userFind (.ofNode n) = none) (ns : List Node) :
    ¬ NoOrphans (removeNodes seq s ns).1.house := by
  induction ns generalizing s with
  | nil =>
    intro ho
    obtain ⟨m, hm, hm'⟩ := ho id r hr
    obtain rfl : n = m := Option.some.inj (hn.symm.trans hm)
    exact hm' hu
  | cons m ns ih =>
    have hr' : (s.nodeRemoved m).1.house.roomFind id = some r := by
      by_cases hm : n = m
      · rw [nodeRemoved_of_none (hm ▸ hu)]
        exact hr
      · exact (frame_nodeRemoved s m).rooms id r n hr hn hm
    have hu' : (s.nodeRemoved m).1.house.userFind (.ofNode n) = none := by
      rw [userFind_nodeRemoved, hu, ite_self]
    exact ih hr' hu'

theorem noOrphans_nodeRemoved {s : Handler} (ho : NoOrphans s.house) (n : Node) :
    NoOrphans (s.nodeRemoved n).1.house ↔ NamesItsRooms s.house n := by
  constructor
  · intro ho' id r hr hn
    by_contra hnone
    have hr' : (s.nodeRemoved n).1.house.roomFind id = some r :=
      roomFind_nodeRemoved.2 ⟨hr, fun ui hui hh hid => hnone ⟨ui, hui, hid, hid ▸ hh.1⟩⟩
    obtain ⟨m, hm, hm'⟩ := ho' id r hr'
    obtain rfl : n = m := Option.some.inj (hn.symm.trans hm)
    exact hm' (userFind_nodeRemoved_self s n)
  · intro hnames id r hr'
    obtain ⟨hr, hopen⟩ := roomFind_nodeRemoved.1 hr'
    obtain ⟨m, hm, hm'⟩ := ho id r hr
    refine ⟨m, hm, ?_⟩
    rw [userFind_nodeRemoved, if_neg]
    · exact hm'
    · rintro ⟨rfl⟩
      -- The entry names the room, so it would have been closed.
      obtain ⟨ui, hui, rfl, hne⟩ := hnames id r hr hm
      refine hopen ui hui ⟨hne, r, hr, ?_⟩ rfl
      exact (UserKey.eqv_of_node (House.node_of_userFind hui)).2 hm

theorem namesItsRooms_nodeRemoved {s : Handler} {n m : Node} (hm : m ≠ n) :
    NamesItsRooms (s.nodeRemoved n).1.house m ↔ NamesItsRooms s.house m := by
  have hu : (s.nodeRemoved n).1.house.userFind (.ofNode m) = s.house.userFind (.ofNode m) := by
    rw [userFind_nodeRemoved, if_neg]
    simpa using hm
  unfold NamesItsRooms
  rw [hu]
  constructor
  · intro h id r hr ho
    exact h id r ((frame_nodeRemoved s n).rooms id r m hr ho hm) ho
  · intro h id r hr ho
    exact h id r (roomFind_nodeRemoved.1 hr).1 ho

theorem noOrphans_removeNodes (seq : UInt32) {s : Handler} (ho : NoOrphans s.house)
    (ns : List Node) :
    NoOrphans (removeNodes seq s ns).1.house ↔ ∀ n ∈ ns, NamesItsRooms s.house n := by
  induction ns generalizing s with
  | nil => simp [removeNodes, ho]
  | cons n ns ih =>
    by_cases hn : NamesItsRooms s.house n
    · have ho' := (noOrphans_nodeRemoved ho n).2 hn
      rw [List.forall_mem_cons, and_iff_right hn]
      refine (ih ho').trans (forall₂_congr fun m _ => ?_)
      by_cases hm : m = n
      · subst hm
        refine iff_of_true (fun id r hr hown => ?_) hn
        obtain ⟨k, hk, hk'⟩ := ho' id r hr
        obtain rfl : m = k := Option.some.inj (hown.symm.trans hk)
        exact absurd (userFind_nodeRemoved_self s m) hk'
      · exact namesItsRooms_nodeRemoved hm
    · refine iff_of_false ?_ fun h => hn (h n List.mem_cons_self)
      obtain ⟨id, r, hr, hown, hopen⟩ : ∃ id r, s.house.roomFind id = some r ∧
          r.ownerId.node = some n ∧ ¬ ∃ ui, s.house.userFind (.ofNode n) = some ui ∧
            ui.roomId = id ∧ id ≠ "" := by
        simpa only [NamesItsRooms, not_forall, exists_prop] using hn
      have hr' : (s.nodeRemoved n).1.house.roomFind id = some r :=
        roomFind_nodeRemoved.2 ⟨hr, fun ui hui hh hid => hopen ⟨ui, hui, hid, hid ▸ hh.1⟩⟩
      exact orphan_persists seq hr' hown (userFind_nodeRemoved_self s n) ns

/-! ## Updates -/

/-- An update closes rooms and keeps every user in the house. -/
theorem noOrphans_userUpdate {base : Int} {h : House} (ho : NoOrphans h) (old upd u : User) :
    NoOrphans ((userUpdate base h old upd).house.userStore u) := by
  refine ho.of_sub (fun id r hr => ?_) fun n hn => ?_
  · rw [House.roomFind_userStore, userUpdate_house] at hr
    split at hr
    · exact House.roomFind_of_close hr
    · exact hr
  · rw [House.userFind_userStore, userFind_userUpdate_house]
    split
    · simpa using hn
    · exact hn

theorem noOrphans_recvUserUpdate {s : Handler} (ho : NoOrphans s.house) (w : UserWire) (n : Node)
    (now : Int) : NoOrphans (s.recvUserUpdate w n now).1.house := by
  cases hf : s.house.userFind (.ofNode n) with
  | none =>
    rw [recvUserUpdate_of_none hf]
    exact ho
  | some ui =>
    rw [recvUserUpdate_of_find hf]
    exact noOrphans_userUpdate ho ui _ _

theorem noOrphans_nodeAdded {s : Handler} (ho : NoOrphans s.house) (n : Node) (now : Int) :
    NoOrphans (s.nodeAdded n now).1.house := by
  have hadd : NoOrphans (s.adapterNodeAdded n now).1.house := by
    have ha := adapterNodeAdded_outcome s n now
    generalize s.adapterNodeAdded n now = a at ha ⊢
    cases ha with
    | present => exact ho
    | added hf husers hrooms =>
      refine ho.of_sub (fun id r hr => (hrooms id).symm.trans hr) fun m hm => ?_
      rw [husers]
      split
      · simp
      · exact hm
  have hself : NoOrphans ((s.adapterNodeAdded n now).1.selfAdded n).1.house := by
    cases hf : (s.adapterNodeAdded n now).1.house.userFind (.ofNode n) with
    | none =>
      rw [selfAdded_of_none hf]
      exact hadd
    | some ui =>
      rw [selfAdded_of_find hf]
      exact noOrphans_userUpdate hadd ui _ _
  rw [nodeAdded_eq]
  split
  · exact ho
  · split
    · exact hself
    · exact hadd

/-- A room update leaves an orphan exactly when it brings a new room from an unknown node. -/
theorem noOrphans_recvRoomUpdate {s : Handler} (ho : NoOrphans s.house) (w : RoomWire) (n : Node) :
    NoOrphans (s.recvRoomUpdate w n).1.house ↔
      (w.id ≠ "" → s.house.roomFind w.id = none → s.house.userFind (.ofNode n) ≠ none) := by
  have hr := recvRoomUpdate_outcome s w n
  generalize s.recvRoomUpdate w n = r at hr ⊢
  cases hr with
  | ignored h =>
    refine iff_of_true ho fun hid hnone => ?_
    rcases h with h | ⟨ri, hri, -⟩
    · exact absurd h hid
    · rw [hri] at hnone
      cases hnone
  | @put ui h' hid hf howner hput =>
    refine iff_of_true (fun id r hr => ?_) fun _ _ => by rw [hf]; simp
    have hr' := (hput.rooms id).symm.trans hr
    split at hr'
    · cases hr'
      refine ⟨n, House.node_of_userFind hf, ?_⟩
      rw [hput.users, hf]
      simp
    · obtain ⟨m, hm, hm'⟩ := ho id r hr'
      exact ⟨m, hm, by rwa [hput.users]⟩
  | orphan hid hf hnone hput =>
    refine iff_of_false (fun ho' => ?_) fun h => h hid hnone hf
    obtain ⟨m, hm, -⟩ := ho' w.id w.toRoom ((hput.rooms w.id).trans (if_pos rfl))
    cases hm

/-! ## Runs -/

/-- An event leaves no orphan exactly when the owners in it are known. -/
theorem noOrphans_step (s : Handler) (e : Event) (ho : NoOrphans s.house) :
    NoOrphans (s.step e).1.house ↔ OwnersKnown s e := by
  cases e with
  | nodeAdded n now => exact iff_of_true (noOrphans_nodeAdded ho n now) trivial
  | nodeRemoved n => exact noOrphans_nodeRemoved ho n
  | dataReceived p n now =>
    simp only [step, dataReceived]
    split
    · rename_i hb
      refine iff_of_true ho ?_
      cases p <;> simp [OwnersKnown, hb]
    · rename_i hb
      cases p with
      | roomUpdate w => simpa [OwnersKnown, hb] using noOrphans_recvRoomUpdate ho w n
      | userUpdate w => exact iff_of_true (noOrphans_recvUserUpdate ho w n now) trivial
      | userReq => exact iff_of_true ho trivial
      | userData hdr body =>
        refine iff_of_true ?_ trivial
        simp only [recvUserData]
        split <;> exact ho
      | unrecognized _ => exact iff_of_true ho trivial
      | malformed => exact iff_of_true ho trivial
  | updateUser u now => exact iff_of_true ho trivial
  | updateRoom r => exact iff_of_true ho trivial
  | blockUsers m =>
    have ho' : NoOrphans { s with ipBlock := s.ipBlock.handleMessage m }.house := ho
    refine (noOrphans_removeNodes m.sequence ho' _).trans ⟨fun h n hb => ?_, fun h n hn => ?_⟩
    · intro id r hr hown
      obtain ⟨k, hk, hk'⟩ := ho id r hr
      obtain rfl : n = k := Option.some.inj (hown.symm.trans hk)
      exact h n (mem_blockedNodes.2 ⟨hk', hb⟩) id r hr hown
    · exact h n (mem_blockedNodes.1 hn).2
  | selfChanged n => exact iff_of_true ho trivial

theorem noOrphans_init (base : Int) : NoOrphans (init base).house := by
  intro id r hr
  simp [init] at hr

/-- **When every room has an owner.** Every state of a run is free of orphans exactly when the
owners are known at each of its events. -/
theorem noOrphans_iff_guarded (base : Int) (es : List Event) :
    (∀ fs, fs <+: es → NoOrphans (machine.exec (init base) fs).house) ↔
      machine.Guarded OwnersKnown (init base) es :=
  machine.forall_along_iff_guarded noOrphans_step (noOrphans_init base) es

/-- A host announces its room and goes before its user update arrives: the room stays. -/
theorem orphan_of_unnamed :
    ¬ NoOrphans (machine.exec (init 29)
      [.nodeAdded ⟨1, 2⟩ 0, .dataReceived (.roomUpdate { id := "5:a" }) ⟨1, 2⟩ 0,
        .nodeRemoved ⟨1, 2⟩]).house := by
  intro ho
  obtain ⟨n, hn, hu⟩ := ho "5:a" { id := "5:a", ownerId := .ofNode ⟨1, 2⟩ } (by decide)
  obtain rfl : ⟨1, 2⟩ = n := Option.some.inj hn
  exact hu (by decide)

end RvHouse.Handler
