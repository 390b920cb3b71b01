import RvHouse.Gui.UsersView

/-!
# The model and the view of the users

The GUI applies each message to its model and then to the main view of the users. `handle_of_fits`
says which messages keep the two in step (`Fits`): a user keeps an id string until it leaves under
it, and when it leaves no other node of its group carries the string. For the view removes the feed
of the group from the item of the string, whichever node has gone.
-/

namespace RvHouse

/-- A user of the group carries the id string. -/
def GroupHouse.Carries (g : GroupHouse) (s : String) : Prop :=
  ∃ u ∈ g.house.users.toList, u.id.idStr = s

theorem GroupHouse.carries_iff {g : GroupHouse} {s : String} :
    g.Carries s ↔ ∃ k u, g.house.userFind k = some u ∧ u.id.idStr = s := by
  constructor
  · rintro ⟨u, hu, hs⟩
    exact ⟨u.id, u, House.mem_users.1 hu, hs⟩
  · rintro ⟨k, u, hu, hs⟩
    have hn : u.id.node = k.node := House.node_of_userFind hu
    exact ⟨u, House.mem_users.2 ((House.userFind_congr hn).trans hu), hs⟩

/-- The model and the main view, which has no room. -/
structure Desk where
  house : ModelHouse := {}
  view : UsersView := {}

/-- Messages that keep the view in step with the model of their group. -/
inductive Fits (g : GroupHouse) : Message → Prop where
  | user {u : User} {seq : UInt32} {base : Int}
      (h : ∀ ui, g.house.userFind u.id = some ui →
        ui.id.idStr = "" ∨ u.id.idStr = "" ∨ ui.id.idStr = u.id.idStr) :
    Fits g (.ofUser .user u seq base)
  | userLeft {u : User} {seq : UInt32} {base : Int}
      (hname : ∀ ui, g.house.userFind u.id = some ui → ui.id.idStr = u.id.idStr)
      (hsole : u.id.idStr ≠ "" → ∀ k v, g.house.userFind k = some v → k.node ≠ u.id.node →
        v.id.idStr ≠ u.id.idStr) :
    Fits g (.ofUser .userLeft u seq base)
  | room {r : Room} {uid : UserKey} {seq : UInt32} {base : Int} :
    Fits g (.ofRoom .room r uid seq base)
  | other {m : Message} (hid : m.id ∉ [MsgId.user, .userLeft, .room])
      (hsame : ∀ k, (g.handle m).house.userFind k = g.house.userFind k) : Fits g m

namespace Desk

/-- A message is applied. -/
def handle (d : Desk) (m : Message) : Option Desk := do
  let house ← d.house.handleModelUpdate m
  let view ← d.view.handleMessage d.house house m
  return { house, view }

/-- A batch of messages is applied. -/
def handleAll (d : Desk) (ms : List Message) : Option Desk := ms.foldlM handle d

/-- A user of some group carries the id string. -/
def Carried (hm : ModelHouse) (s : String) : Prop :=
  ∃ grp g, hm.houseFind grp = some g ∧ g.Carries s

/-- The view shows one item for each id string that a user carries and none for any other one. -/
def ShowsExactly (d : Desk) : Prop :=
  ∀ s, s ≠ "" → (Carried d.house s → d.view.labels.count s = 1) ∧
    (¬ Carried d.house s → d.view.labels.count s = 0)

/-- The view has the feeds that the model gives. -/
structure Represents (hm : ModelHouse) (v : UsersView) : Prop where
  good : v.Good
  roomId : v.roomId = ""
  feeds : ∀ s, s ≠ "" → ∀ grp, v.Shows s grp ↔ ∃ g, hm.houseFind grp = some g ∧ g.Carries s

theorem showsExactly_of_represents {d : Desk} (h : Represents d.house d.view) :
    d.ShowsExactly := by
  intro s hs
  obtain ⟨hone, hzero⟩ := UsersView.count_labels h.good hs
  have hcarried : (∃ grp, d.view.Shows s grp) ↔ Carried d.house s :=
    exists_congr fun grp => h.feeds s hs grp
  rw [hcarried] at hone hzero
  exact ⟨hone.2, hzero.2⟩

/-! ## The view -/

theorem represents_removeDropped {hm : ModelHouse} {v : UsersView} (h : Represents hm v) :
    Represents hm v.removeDropped :=
  ⟨h.good.removeDropped, h.roomId, h.feeds⟩

/-- To update the item of a user that is in the model leaves the feeds as they are. -/
theorem represents_updateUserById {hm : ModelHouse} {v : UsersView} (h : Represents hm v)
    {grp : Int} {g : GroupHouse} (hg : hm.houseFind grp = some g) (uid : UserKey) :
    ∃ v', v.updateUserById hm uid grp = some v' ∧ Represents hm v' := by
  cases hf : g.userFind uid with
  | none => exact ⟨v, by simp [UsersView.updateUserById, hg, hf], h⟩
  | some ui =>
    refine ⟨v.updateUser ui grp, by simp [UsersView.updateUserById, hg, hf], h.good.updateUser ui grp,
      by simp [h.roomId], fun s hs grp' => ?_⟩
    rw [UsersView.shows_updateUser h.roomId, h.feeds s hs]
    refine or_iff_left_of_imp ?_
    rintro ⟨-, rfl, rfl⟩
    exact ⟨g, hg, GroupHouse.carries_iff.2 ⟨_, ui, hf, rfl⟩⟩

theorem represents_updateUsers {hm : ModelHouse} {v : UsersView} (h : Represents hm v)
    {grp : Int} {g : GroupHouse} (hg : hm.houseFind grp = some g) (rid : String) :
    ∃ v', v.updateUsers hm rid grp = some v' ∧ Represents hm v' := by
  simp only [UsersView.updateUsers, hg, Option.bind_eq_bind, Option.bind_some]
  generalize (g.house.users.toList.filter (·.roomId == rid)).map (·.id) = ids
  induction ids generalizing v with
  | nil => exact ⟨v, rfl, h⟩
  | cons uid ids ih =>
    obtain ⟨v₁, h₁, hr₁⟩ := represents_updateUserById h hg uid
    obtain ⟨v₂, h₂, hr₂⟩ := ih hr₁
    exact ⟨v₂, by simpa [h₁] using h₂, hr₂⟩

theorem represents_roomUpdate {hmp hmc : ModelHouse} {v : UsersView} (h : Represents hmc v)
    {grp : Int} {g gp : GroupHouse} (hg : hmc.houseFind grp = some g)
    (hgp : hmp.houseFind grp = some gp) (rid : String) :
    ∃ v', v.roomUpdate hmp hmc rid grp = some v' ∧ Represents hmc v' := by
  simp only [UsersView.roomUpdate, hg, hgp, Option.bind_eq_bind, Option.bind_some]
  split
  · split
    · exact ⟨v, rfl, h⟩
    · exact represents_updateUsers h hg rid
  · exact represents_updateUsers h hg rid

/-! ## The model -/

theorem carries_congr {g g' : GroupHouse} (h : ∀ k, g'.house.userFind k = g.house.userFind k)
    (s : String) : g'.Carries s ↔ g.Carries s := by
  simp only [GroupHouse.carries_iff, h]

/-- The entry after an update: it keeps the name that it had. -/
theorem exists_entry_userUpdate {g : GroupHouse} {u : User}
    (h : ∀ ui, g.house.userFind u.id = some ui →
      ui.id.idStr = "" ∨ u.id.idStr = "" ∨ ui.id.idStr = u.id.idStr) :
    ∃ e, (g.userUpdate u).1.house.userFind u.id = some e ∧
      ∀ ui, g.house.userFind u.id = some ui → ui.id.idStr ≠ "" → e.id.idStr = ui.id.idStr := by
  rw [GroupHouse.userFind_userUpdate, if_pos rfl]
  cases hui : g.house.userFind u.id with
  | none => exact ⟨u, by simp, fun ui hui => by cases hui⟩
  | some ui =>
    by_cases hempty : u.id.idStr = ""
    · refine ⟨ui, by simp [hempty], fun v hv _ => ?_⟩
      cases hv
      rfl
    · refine ⟨u, by simp [hempty], fun v hv hne => ?_⟩
      cases hv
      exact (((h ui hui).resolve_left hne).resolve_left hempty).symm

/-- The strings of the group after an update: the string of the entry comes in. -/
theorem carries_userUpdate {g : GroupHouse} {u : User}
    (h : ∀ ui, g.house.userFind u.id = some ui →
      ui.id.idStr = "" ∨ u.id.idStr = "" ∨ ui.id.idStr = u.id.idStr) :
    ∃ e, (g.userUpdate u).1.house.userFind u.id = some e ∧
      ∀ s, s ≠ "" → ((g.userUpdate u).1.Carries s ↔ g.Carries s ∨ e.id.idStr = s) := by
  obtain ⟨e, he, hold⟩ := exists_entry_userUpdate h
  refine ⟨e, he, fun s hs => ?_⟩
  rw [GroupHouse.carries_iff, GroupHouse.carries_iff]
  constructor
  · rintro ⟨k, v, hv, rfl⟩
    by_cases hk : u.id.node = k.node
    · rw [← House.userFind_congr hk, he] at hv
      cases hv
      exact .inr rfl
    · rw [GroupHouse.userFind_userUpdate, if_neg hk] at hv
      exact .inl ⟨k, v, hv, rfl⟩
  · rintro (⟨k, v, hv, rfl⟩ | rfl)
    · by_cases hk : u.id.node = k.node
      · have hv' : g.house.userFind u.id = some v := (House.userFind_congr hk).trans hv
        exact ⟨u.id, e, he, hold v hv' hs⟩
      · refine ⟨k, v, ?_, rfl⟩
        rw [GroupHouse.userFind_userUpdate, if_neg hk, hv]
    · exact ⟨u.id, e, he, rfl⟩

/-- The strings of the group after a removal: the string of the user goes. -/
theorem carries_userErase {g : GroupHouse} {id : UserKey}
    (hname : ∀ ui, g.house.userFind id = some ui → ui.id.idStr = id.idStr)
    (hsole : id.idStr ≠ "" → ∀ k v, g.house.userFind k = some v → k.node ≠ id.node →
      v.id.idStr ≠ id.idStr) {s : String} (hs : s ≠ "") :
    (g.userErase id).1.Carries s ↔ g.Carries s ∧ id.idStr ≠ s := by
  rw [GroupHouse.carries_iff, GroupHouse.carries_iff]
  constructor
  · rintro ⟨k, v, hv, rfl⟩
    rw [GroupHouse.userFind_userErase] at hv
    split at hv
    · cases hv
    · rename_i hk
      refine ⟨⟨k, v, hv, rfl⟩, fun heq => ?_⟩
      exact hsole (heq ▸ hs) k v hv (Ne.symm hk) heq.symm
  · rintro ⟨⟨k, v, hv, rfl⟩, hne⟩
    refine ⟨k, v, ?_, rfl⟩
    rw [GroupHouse.userFind_userErase, if_neg, hv]
    intro hk
    have hv' : g.house.userFind id = some v := (House.userFind_congr hk).trans hv
    exact hne (hname v hv').symm

/-! ## Messages -/

/-- A model that differs from another in the group `grp` only. -/
theorem carried_put {hm hm' : ModelHouse} {grp : Int} {g g' : GroupHouse}
    (hg : hm.houseFind grp = some g) (hg' : hm'.houseFind grp = some g')
    (hrest : ∀ grp', grp' ≠ grp → hm'.houseFind grp' = hm.houseFind grp') (s : String) (grp' : Int) :
    (∃ g₁, hm'.houseFind grp' = some g₁ ∧ g₁.Carries s) ↔
      if grp' = grp then g'.Carries s
      else ∃ g₁, hm.houseFind grp' = some g₁ ∧ g₁.Carries s := by
  split
  · rename_i heq
    subst heq
    simp [hg']
  · rename_i hne
    rw [hrest grp' hne]

/-- A model in which the users of the group carry what they carried before. -/
theorem represents_put {hm hm' : ModelHouse} {v : UsersView} (h : Represents hm v) {grp : Int}
    {g g' : GroupHouse} (hg : hm.houseFind grp = some g) (hg' : hm'.houseFind grp = some g')
    (hrest : ∀ grp', grp' ≠ grp → hm'.houseFind grp' = hm.houseFind grp')
    (hsame : ∀ s, g'.Carries s ↔ g.Carries s) : Represents hm' v := by
  refine ⟨h.good, h.roomId, fun s hs grp' => ?_⟩
  rw [h.feeds s hs, carried_put hg hg' hrest]
  split
  · rename_i heq
    subst heq
    simp [hg, hsame]
  · rfl

theorem userFind_of_node {g : GroupHouse} {k : UserKey} (hk : k.node ≠ none) :
    g.userFind k = g.house.userFind k := by
  simp [GroupHouse.userFind, hk]

/-- An update, the model having taken it in: the view has the user under its name. -/
theorem represents_user {hm hm' : ModelHouse} {v : UsersView} (h : Represents hm v) {grp : Int}
    {g : GroupHouse} (hg : hm.houseFind grp = some g) {u : User} {seq : UInt32}
    (hg' : hm'.houseFind grp = some (g.handle (.ofUser .user u seq grp)))
    (hrest : ∀ grp', grp' ≠ grp → hm'.houseFind grp' = hm.houseFind grp') (hnode : u.id.node ≠ none)
    (hname : ∀ ui, g.house.userFind u.id = some ui →
      ui.id.idStr = "" ∨ u.id.idStr = "" ∨ ui.id.idStr = u.id.idStr) :
    ∃ view, v.handleMessage hm hm' (.ofUser .user u seq grp) = some view ∧
      Represents hm' view := by
  obtain ⟨e, he, hcarries⟩ := carries_userUpdate (g := g) (u := { u with sequence := seq }) hname
  have hfind : (g.handle (.ofUser .user u seq grp)).userFind u.id = some e :=
    (userFind_of_node hnode).trans he
  have hbyId : v.updateUserById hm' u.id grp = some (v.updateUser e grp) := by
    simp only [UsersView.updateUserById, hg', hfind, Option.bind_eq_bind, Option.bind_some]
    rfl
  refine ⟨(v.updateUser e grp).removeDropped, ?_, represents_removeDropped
    ⟨h.good.updateUser e grp, by simp [h.roomId], fun s hs grp' => ?_⟩⟩
  · simp only [UsersView.handleMessage, Message.ofUser, Body.asUser, Option.bind_eq_bind,
      Option.bind_some]
    rw [hbyId]
    rfl
  · rw [UsersView.shows_updateUser h.roomId, h.feeds s hs, carried_put hg hg' hrest]
    split
    · rename_i heq
      subst heq
      have hiff : (g.handle (.ofUser .user u seq grp')).Carries s ↔
          g.Carries s ∨ e.id.idStr = s := hcarries s hs
      rw [hiff]
      simp only [hg, Option.some.injEq, exists_eq_left', and_true]
      refine or_congr_right ⟨And.right, fun heq => ⟨heq ▸ hs, heq⟩⟩
    · rename_i hne
      exact or_iff_left fun hcond => hne hcond.2.2

/-- A removal, the model having taken it in: the view has the user in no feed of the group. -/
theorem represents_userLeft {hm hm' : ModelHouse} {v : UsersView} (h : Represents hm v) {grp : Int}
    {g : GroupHouse} (hg : hm.houseFind grp = some g) {u : User} {seq : UInt32}
    (hg' : hm'.houseFind grp = some (g.handle (.ofUser .userLeft u seq grp)))
    (hrest : ∀ grp', grp' ≠ grp → hm'.houseFind grp' = hm.houseFind grp')
    (hname : ∀ ui, g.house.userFind u.id = some ui → ui.id.idStr = u.id.idStr)
    (hsole : u.id.idStr ≠ "" → ∀ k v, g.house.userFind k = some v → k.node ≠ u.id.node →
      v.id.idStr ≠ u.id.idStr) :
    Represents hm' (v.removeUser u.id grp).removeDropped := by
  refine represents_removeDropped
    ⟨h.good.removeUser u.id grp, by simp [h.roomId], fun s hs grp' => ?_⟩
  rw [UsersView.shows_removeUser, h.feeds s hs, carried_put hg hg' hrest]
  split
  · rename_i heq
    subst heq
    have hiff : (g.handle (.ofUser .userLeft u seq grp')).Carries s ↔
        g.Carries s ∧ u.id.idStr ≠ s := carries_userErase hname hsole hs
    rw [hiff]
    simp only [hg, Option.some.injEq, exists_eq_left', and_true]
    refine and_congr_right fun _ => not_congr ⟨And.right, fun heq => ⟨heq ▸ hs, heq⟩⟩
  · rename_i hne
    exact and_iff_left fun hcond => hne hcond.2.2

/-- **A fitting message keeps the view in step with the model.** -/
theorem handle_of_fits {d : Desk} (h : Represents d.house d.view) {grp : Int} {g : GroupHouse}
    (hg : d.house.houseFind grp = some g) {m : Message} (hm : m.Of grp) (hfit : Fits g m) :
    ∃ d', d.handle m = some d' ∧ Represents d'.house d'.view ∧
      d'.house.houseFind grp = some (g.handle m) ∧
      ∀ grp', grp' ≠ grp → d'.house.houseFind grp' = d.house.houseFind grp' := by
  obtain ⟨house, hhouse, hg', hrest⟩ := ModelHouse.handleModelUpdate_of hg hm
  suffices hview : ∃ view, d.view.handleMessage d.house house m = some view ∧
      Represents house view by
    obtain ⟨view, hview, hrep⟩ := hview
    exact ⟨⟨house, view⟩, by simp [handle, hhouse, hview], hrep, hg', hrest⟩
  have hgrp : m.groupBase = grp := hm.group
  cases hfit with
  | @user u seq base hname =>
    obtain rfl : base = grp := hgrp
    have hnode : u.id.node ≠ none := hm.node { u with sequence := seq } rfl
    exact represents_user h hg hg' hrest hnode hname
  | @userLeft u seq base hname hsole =>
    obtain rfl : base = grp := hgrp
    exact ⟨_, rfl, represents_userLeft h hg hg' hrest hname hsole⟩
  | @room r uid seq base =>
    obtain rfl : base = grp := hgrp
    have husers : ∀ k, (g.handle (.ofRoom .room r uid seq base)).house.userFind k =
        g.house.userFind k := fun k => GroupHouse.userFind_roomUpdate g _ k
    have hrep := represents_put h hg hg' hrest (carries_congr husers)
    exact represents_roomUpdate hrep hg' hg r.id
  | other hid hsame =>
    refine ⟨d.view, ?_, represents_put h hg hg' hrest (carries_congr hsame)⟩
    obtain ⟨id, sender, seq, base, body⟩ := m
    cases id <;> simp [UsersView.handleMessage] at hid ⊢

end Desk

end RvHouse
