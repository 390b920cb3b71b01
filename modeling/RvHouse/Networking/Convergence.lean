import RvHouse.Networking.Blocking
import RvHouse.Networking.Said

/-!
# Houses catch up

`converges`: when two clients are connected by reliable links that keep the order, and nothing is
in flight between them, the entry that one has for the other shows what the other's GUI announced
last. Packets of all other links may be lost, doubled and put in another order, nodes may come and
go, and clients may block each other; only that `a` drops the request of a client that it has
blocked is excluded (`Reliable`).

The invariant `CatchesUp` looks past the updates in flight: once they are taken in, the entry shows
what it should, unless a request is still on its way to `a`, whose answer then comes last.
-/

namespace RvHouse

/-- The data that a packet brings of its sender. -/
def Payload.update? : Payload → Option Profile
  | .userUpdate w => some w.profile
  | _ => none

namespace Handler

/-- An update of a user in the house is taken in unless its node is blocked. -/
theorem userFind_dataReceived_userUpdate {s : Handler} {a : Node} {u : User}
    (hu : s.house.userFind (.ofNode a) = some u) (hb : s.ipBlock.isBlocked a.ip = false)
    (w : UserWire) (now : Int) :
    (s.dataReceived (.userUpdate w) a now).1.house.userFind (.ofNode a) =
      some (updated u (decoded w a now)) := by
  have hnode : (updated u (decoded w a now)).id.node = (UserKey.ofNode a).node := by
    rw [updated_node]
    exact House.node_of_userFind hu
  simp only [dataReceived, hb, Bool.false_eq_true, if_false, recvUserUpdate_of_find hu]
  rw [House.userFind_userStore, if_pos hnode, userFind_userUpdate_house, hu, Option.map_some]

/-- A node that comes in is asked for its data. -/
theorem userReq_mem_nodeAdded {s : Handler} {a : Node} {now : Int} {u : User}
    (hf : s.house.userFind (.ofNode a) = none)
    (hu : (s.nodeAdded a now).1.house.userFind (.ofNode a) = some u) :
    .send .userReq (some a) ∈ (s.nodeAdded a now).2 := by
  have hadd : .send .userReq (some a) ∈ (s.adapterNodeAdded a now).2 := by
    have ha := adapterNodeAdded_outcome s a now
    generalize s.adapterNodeAdded a now = r at ha
    cases ha with
    | present h => exact absurd hf h
    | added => simp
  rw [nodeAdded_eq] at hu ⊢
  split at hu
  · simp [hf] at hu
  · rename_i hblock
    rw [if_neg hblock]
    split
    · exact List.mem_append_left _ hadd
    · exact hadd

/-- A client that has not blocked the sender answers a request with its own data. -/
theorem userUpdate_mem_dataReceived {s : Handler} {b : Node}
    (hb : s.ipBlock.isBlocked b.ip = false) (now : Int) :
    .send (.userUpdate (s.selfUser.save now).2) (some b) ∈ (s.dataReceived .userReq b now).2 := by
  simp [dataReceived, hb, recvUserReq]

/-- No user in the house has a blocked address. -/
theorem noBlocked_step {s : Handler} (hs : s.NoBlocked s.ipBlock) (e : Event) :
    (s.step e).1.NoBlocked (s.step e).1.ipBlock := by
  by_cases he : e.isLocal
  · have hkeep : (s.step e).1.ipBlock = s.ipBlock := by
      cases e with
      | nodeAdded n now => exact (selfKept_nodeAdded s n now).ipBlock
      | nodeRemoved n => exact (selfKept_nodeRemoved s n).ipBlock
      | dataReceived p n now => exact (selfKept_dataReceived s p n now).ipBlock
      | updateUser => rfl
      | updateRoom => rfl
      | blockUsers => cases he
      | selfChanged => rfl
    rw [hkeep]
    exact hs.step he
  · cases e with
    | blockUsers m =>
      have hkeep := (selfKept_removeNodes m.sequence { s with ipBlock := s.ipBlock.handleMessage m }
        { s with ipBlock := s.ipBlock.handleMessage m : Handler }.blockedNodes).ipBlock
      have hsweep := noBlocked_removeBlockedUsers s (s.ipBlock.handleMessage m) m.sequence
      simp only [step, removeBlockedUsers] at hsweep ⊢
      rw [hkeep]
      exact hsweep
    | _ => simp [Event.isLocal] at he

end Handler

namespace Peer

/-! ## What two clients have of each other -/

/-- The data in flight from `a` to `b`, oldest first. -/
def pending (t : Mesh Node Peer Payload) (a b : Node) : List Profile :=
  (t.link a b).filterMap Payload.update?

/-- The entry that `b` has for `a`. -/
def entry (t : Mesh Node Peer Payload) (b a : Node) : Option User :=
  (t.party b).handler.house.userFind (.ofNode a)

/-- What the GUI of `a` announced last. -/
def announced (t : Mesh Node Peer Payload) (a : Node) : Profile :=
  (t.party a).handler.selfUser.profile

/-- Nothing that matters to what `b` has of `a` is lost, doubled or put in another order: what `a`
announces to all reaches `b` if `b` has an entry for it, and `a` answers requests of `b`. -/
def Reliable (a b : Node) (t : Mesh Node Peer Payload) : MeshEvent Node PeerInput Int → Prop
  | .arrive src dst k keep _ _ =>
    (src = a ∧ dst = b → k = 0 ∧ keep = false) ∧
      (src = b ∧ dst = a → (t.party a).handler.ipBlock.isBlocked b.ip = false)
  | .lose src dst _ => ¬ (src = a ∧ dst = b) ∧ ¬ (src = b ∧ dst = a)
  | .own n (.message m _) reach => n = a → m.id = .user → entry t b a ≠ none → b ∈ reach
  | .own _ _ _ => True

instance (a b : Node) (t : Mesh Node Peer Payload) :
    ∀ e : MeshEvent Node PeerInput Int, Decidable (Reliable a b t e)
  | .arrive _ _ _ _ _ _ => inferInstanceAs (Decidable ((_ → _) ∧ (_ → _)))
  | .lose _ _ _ => inferInstanceAs (Decidable (¬ _ ∧ ¬ _))
  | .own _ (.message _ _) _ => inferInstanceAs (Decidable (_ → _ → _ → _))
  | .own _ (.nodeAdded _ _) _ => .isTrue trivial
  | .own _ (.nodeRemoved _) _ => .isTrue trivial
  | .own _ (.inState _) _ => .isTrue trivial
  | .own _ (.selfKnown _) _ => .isTrue trivial

/-- With the updates in flight the entry of `b` for `a` shows what it should, or `a` is still asked
for its data. -/
def CatchesUp (a b : Node) (t : Mesh Node Peer Payload) : Prop :=
  ∀ u, entry t b a = some u →
    .userReq ∈ t.link b a ∨ (pending t a b).getLastD u.profile = announced t a

/-! ## What a client sends of itself -/

section Sent

variable {self b : Node} {s : Peer} {x : Inbound Node PeerInput Payload Int} {reach : List Node}

theorem update_of_sent {q : Payload} {p : Profile} (hq : q ∈ peers.sentTo reach (act self s x).2 b)
    (hp : q.update? = some p) : p = (act self s x).1.handler.selfUser.profile := by
  obtain ⟨o, ho, d, hd, -⟩ := peers.mem_sentTo.1 hq
  have hx := act_outcome self s x
  generalize act self s x = r at hx ho ⊢
  cases o with
  | send q' d' =>
    cases hd
    cases hx with
    | @event x e he =>
      have hprofile := Handler.profile_selfUser_step s.handler e
      cases Handler.mem_step_send ho with
      | selfUser =>
        cases hp
        exact hprofile.symm
      | updateUser =>
        cases hp
        exact hprofile.symm
      | _ => cases hp
    | speaks hout =>
      rcases hout _ ho with ⟨n, hn⟩ | ⟨hdr, body, d', hn, -⟩ <;> cases hn <;> cases hp
    | inState => cases List.mem_singleton.1 ho
  | post => cases hd
  | derefRoomEnd => cases hd

/-- New data of the own user are sent to all. -/
theorem sent_of_changed
    (h : (act self s x).1.handler.selfUser.profile ≠ s.handler.selfUser.profile) :
    ∃ m now, x = .own (.message m now) ∧ m.id = .user ∧
      ∃ w, .send (.userUpdate w) none ∈ (act self s x).2 := by
  have hx := act_outcome self s x
  generalize act self s x = r at hx h ⊢
  cases hx with
  | @event x e he =>
    have hprofile := Handler.profile_selfUser_step s.handler e
    cases he with
    | @updateUser m now u hid =>
      exact ⟨m, now, rfl, hid, (u.save now).2, by simp [via, Handler.step, Handler.updateUser]⟩
    | _ => exact absurd hprofile h
  | speaks => exact absurd rfl h
  | inState => exact absurd rfl h

theorem sent_of_req {now : Int} (hb : s.handler.ipBlock.isBlocked b.ip = false) :
    ∃ w, .userUpdate w ∈ peers.sentTo reach (act self s (.packet b .userReq now)).2 b :=
  ⟨_, peers.mem_sentTo.2 ⟨_, Handler.userUpdate_mem_dataReceived hb now, some b, rfl, .inl rfl⟩⟩

end Sent

theorem getLastD_toList_append {α : Type*} (o : Option α) (l : List α) (d : α) :
    (o.toList ++ l).getLastD d = l.getLastD (o.getD d) := by
  cases o with
  | none => rfl
  | some x => exact List.getLastD_cons

theorem getLastD_append_of_forall {α : Type*} {l l' : List α} {v d : α} (h : ∀ x ∈ l', x = v) :
    (l ++ l').getLastD d = if l' = [] then l.getLastD d else v := by
  cases l' using List.reverseRecOn with
  | nil => simp
  | append_singleton l' x =>
    obtain rfl : x = v := h x (by simp)
    simp [← List.append_assoc]

/-! ## One act -/

section Act

variable {a b : Node} {t : Mesh Node Peer Payload} {x : Inbound Node PeerInput Payload Int}
  {reach : List Node}

/-- An act of `a`, the request that it answers aside. -/
theorem catchesUp_perform_left (hab : a ≠ b)
    (h : ∀ u, entry t b a = some u →
      (∃ now, x = .packet b .userReq now ∧ (t.party a).handler.ipBlock.isBlocked b.ip = false) ∨
        .userReq ∈ t.link b a ∨ (pending t a b).getLastD u.profile = announced t a)
    (hreach : ∀ m now, x = .own (.message m now) → m.id = .user → entry t b a ≠ none → b ∈ reach) :
    CatchesUp a b (peers.perform t a x reach).1 := by
  intro u hu
  have hu' : entry t b a = some u := by
    simpa [entry, Function.update_of_ne hab.symm] using hu
  have hback : (peers.perform t a x reach).1.link b a = t.link b a := by
    simp [Parties.perform_link, hab.symm]
  have hself : announced (peers.perform t a x reach).1 a =
      (act a (t.party a) x).1.handler.selfUser.profile := by
    simp [announced, peers]
  -- What `a` sends of itself comes last.
  have hsent : ∀ p ∈ (peers.sentTo reach (act a (t.party a) x).2 b).filterMap Payload.update?,
      p = announced (peers.perform t a x reach).1 a := by
    intro p hp
    obtain ⟨q, hq, hqp⟩ := List.mem_filterMap.1 hp
    rw [hself]
    exact update_of_sent hq hqp
  have hpending : (pending (peers.perform t a x reach).1 a b).getLastD u.profile =
      if (peers.sentTo reach (act a (t.party a) x).2 b).filterMap Payload.update? = [] then
        (pending t a b).getLastD u.profile
      else announced (peers.perform t a x reach).1 a := by
    rw [← getLastD_append_of_forall hsent]
    simp [pending, Parties.perform_link, peers]
  rw [hback, hpending]
  split
  · rename_i hnone
    have hquiet : ∀ w, Payload.userUpdate w ∉ peers.sentTo reach (act a (t.party a) x).2 b := by
      intro w hw
      have hmem := List.mem_filterMap.2 ⟨_, hw, (rfl : (Payload.userUpdate w).update? = some _)⟩
      rw [hnone] at hmem
      cases hmem
    rcases h u hu' with ⟨now, rfl, hb⟩ | hreq | hlast
    · have hsends : ∃ w, Payload.userUpdate w ∈
          peers.sentTo reach (act a (t.party a) (.packet b .userReq now)).2 b := sent_of_req hb
      obtain ⟨w, hw⟩ := hsends
      exact absurd hw (hquiet w)
    · exact .inl hreq
    · refine .inr (hlast.trans (Eq.symm ?_))
      by_contra hchanged
      rw [hself] at hchanged
      obtain ⟨m, now, rfl, hid, w, hw⟩ := sent_of_changed hchanged
      have hb : b ∈ reach := hreach m now rfl hid (by simp [hu'])
      exact hquiet w (peers.mem_sentTo.2 ⟨_, hw, none, rfl, .inr ⟨rfl, hb⟩⟩)
  · exact .inr rfl

/-- The data of `a` that arrive. -/
def arriving (a : Node) : Inbound Node PeerInput Payload Int → Option Profile
  | .packet src p _ => if src = a then p.update? else none
  | .own _ => none

theorem eq_of_arriving {p : Profile} (h : arriving a x = some p) :
    ∃ w now, x = .packet a (.userUpdate w) now ∧ w.profile = p := by
  rcases x with i | ⟨src, q, now⟩
  · cases h
  · simp only [arriving] at h
    split at h
    · rename_i hsrc
      subst hsrc
      cases q with
      | userUpdate w =>
        cases h
        exact ⟨w, now, rfl, rfl⟩
      | _ => cases h
    · cases h

/-- The entry for `a` after an act of `b`: it shows the data that arrive, or what it showed before,
or it is new and `a` is asked. -/
theorem entry_act (hself : (t.party b).handler.grpSelf ≠ some a)
    (hblock : (t.party b).handler.NoBlocked (t.party b).handler.ipBlock) {u : User}
    (hu : (act b (t.party b) x).1.handler.house.userFind (.ofNode a) = some u) :
    (∃ u₀, entry t b a = some u₀ ∧ u.profile = (arriving a x).getD u₀.profile) ∨
      .userReq ∈ peers.sentTo reach (act b (t.party b) x).2 a := by
  have hx := act_outcome b (t.party b) x
  generalize act b (t.party b) x = r at hx hu ⊢
  cases hx with
  | @event x e he =>
    cases harr : arriving a x with
    | some p =>
      obtain ⟨w, now, rfl, rfl⟩ := eq_of_arriving harr
      cases he
      have hold : ∃ u₀, entry t b a = some u₀ := by
        cases Handler.entry_step hu with
        | kept hold => exact ⟨_, hold⟩
        | updated hold => exact ⟨_, hold⟩
      obtain ⟨u₀, hu₀⟩ := hold
      have hfree := hblock a (Option.ne_none_iff_exists'.2 ⟨u₀, hu₀⟩)
      have hnew := Handler.userFind_dataReceived_userUpdate hu₀ hfree w now
      cases hnew.symm.trans hu
      exact .inl ⟨u₀, hu₀, rfl⟩
    | none =>
      cases Handler.entry_step hu with
      | kept hold => exact .inl ⟨u, hold, rfl⟩
      | added hf =>
        have hreq := Handler.userReq_mem_nodeAdded hf hu
        exact .inr (peers.mem_sentTo.2 ⟨.send .userReq (some a), hreq, some a, rfl, .inl rfl⟩)
      | updated hold =>
        cases he
        simp [arriving, Payload.update?] at harr
      | self h => exact absurd h hself
  | speaks => exact .inl ⟨u, hu, rfl⟩
  | inState => exact .inl ⟨u, hu, rfl⟩

/-- An act of `b`, which may take an update off the link. -/
theorem catchesUp_perform_right (hab : a ≠ b)
    (hself : (t.party b).handler.grpSelf ≠ some a)
    (hblock : (t.party b).handler.NoBlocked (t.party b).handler.ipBlock)
    (h : ∀ u, entry t b a = some u →
      .userReq ∈ t.link b a ∨
        (pending t a b).getLastD ((arriving a x).getD u.profile) = announced t a) :
    CatchesUp a b (peers.perform t b x reach).1 := by
  intro u hu
  have hself' : announced (peers.perform t b x reach).1 a = announced t a := by
    simp [announced, Function.update_of_ne hab]
  have hpending : pending (peers.perform t b x reach).1 a b = pending t a b := by
    simp [pending, Parties.perform_link, hab]
  have hback : ∀ q, q ∈ t.link b a ∨ q ∈ peers.sentTo reach (act b (t.party b) x).2 a →
      q ∈ (peers.perform t b x reach).1.link b a := by
    intro q hq
    rw [Parties.perform_link, if_pos rfl]
    exact List.mem_append.2 hq
  have hu' : (act b (t.party b) x).1.handler.house.userFind (.ofNode a) = some u := by
    simpa [entry, peers] using hu
  rw [hself', hpending]
  have hentry : _ ∨ Payload.userReq ∈ peers.sentTo reach (act b (t.party b) x).2 a :=
    entry_act hself hblock hu'
  rcases hentry with ⟨u₀, hu₀, hprofile⟩ | hreq
  · rw [hprofile]
    exact (h u₀ hu₀).imp_left fun hreq => hback _ (.inl hreq)
  · exact .inl (hback _ (.inr hreq))

/-- An act of somebody else. -/
theorem catchesUp_perform_other {n : Node} (hna : n ≠ a) (hnb : n ≠ b) (h : CatchesUp a b t) :
    CatchesUp a b (peers.perform t n x reach).1 := by
  intro u hu
  have hu' : entry t b a = some u := by
    simpa [entry, Function.update_of_ne hnb.symm] using hu
  simpa [pending, announced, Parties.perform_link, hna.symm, hnb.symm,
    Function.update_of_ne hna.symm] using h u hu'

end Act

/-! ## Runs -/

/-- What the clients keep whatever the network does. -/
structure Sound (t : Mesh Node Peer Payload) : Prop where
  noBlocked : ∀ n, (t.party n).handler.NoBlocked (t.party n).handler.ipBlock
  grpSelf : ∀ n m, (t.party n).handler.grpSelf = some m → m = n

theorem noBlocked_act (n : Node) (s : Peer) (x : Inbound Node PeerInput Payload Int)
    (hs : s.handler.NoBlocked s.handler.ipBlock) :
    (act n s x).1.handler.NoBlocked (act n s x).1.handler.ipBlock := by
  have hx := act_outcome n s x
  generalize act n s x = r at hx ⊢
  cases hx with
  | event => exact Handler.noBlocked_step hs _
  | speaks => exact hs
  | inState => exact hs

theorem grpSelf_act (n : Node) (s : Peer) (x : Inbound Node PeerInput Payload Int)
    (hs : ∀ m, s.handler.grpSelf = some m → m = n) :
    ∀ m, (act n s x).1.handler.grpSelf = some m → m = n := by
  have hx := act_outcome n s x
  generalize act n s x = r at hx ⊢
  cases hx with
  | @event x e he =>
    intro m hm
    have hgrp := Handler.grpSelf_step s.handler e
    cases he with
    | @selfKnown known =>
      rw [via, hgrp] at hm
      cases known with
      | true => exact (Option.some.inj hm).symm
      | false => cases hm
    | _ => exact hs m (hgrp.symm.trans hm)
  | speaks => exact hs
  | inState => exact hs

theorem Sound.step {t : Mesh Node Peer Payload} (ht : Sound t)
    (e : MeshEvent Node PeerInput Int) : Sound (peers.mesh.step t e).1 where
  noBlocked := peers.party_step noBlocked_act ht.noBlocked e
  grpSelf := peers.party_step grpSelf_act ht.grpSelf e

theorem sound_initial (base : Int) : Sound (initial base) where
  noBlocked n m hm := absurd (House.userFind_empty _) hm
  grpSelf n m hm := by cases hm

/-- A packet that arrives at `a` is a request of `b`, or the requests of `b` stay where they are. -/
theorem userReq_mem_drop {t : Mesh Node Peer Payload} {src a b : Node} {k : ℕ} {p : Payload}
    (hk : (t.link src a)[k]? = some p) (hreq : .userReq ∈ t.link b a) :
    (src = b ∧ p = .userReq) ∨ .userReq ∈ (t.drop src a k).link b a := by
  by_cases hsrc : src = b
  · subst hsrc
    by_cases hp : p = .userReq
    · exact .inl ⟨rfl, hp⟩
    · refine .inr ?_
      rw [Mesh.drop_link, if_pos ⟨rfl, rfl⟩]
      obtain ⟨i, hi, hget⟩ := List.mem_iff_getElem.1 hreq
      have hik : i ≠ k := by
        rintro rfl
        rw [List.getElem?_eq_getElem hi, hget] at hk
        exact hp (Option.some.inj hk).symm
      exact List.mem_eraseIdx_iff_getElem.2 ⟨i, hi, hik, hget⟩
  · refine .inr ?_
    rwa [Mesh.drop_link, if_neg fun h => hsrc h.1.symm]

/-- An update that arrives from `a` at `b` in order was the oldest one. -/
theorem pending_drop {t : Mesh Node Peer Payload} {src a b : Node} {k : ℕ} {p : Payload}
    (hk : (t.link src b)[k]? = some p) (hfirst : src = a → k = 0) (now : Int) :
    pending t a b = (arriving a (.packet src p now)).toList ++ pending (t.drop src b k) a b := by
  by_cases hsrc : src = a
  · subst hsrc
    obtain rfl := hfirst rfl
    cases hl : t.link src b with
    | nil => simp [hl] at hk
    | cons q qs =>
      obtain rfl : q = p := by simpa [hl] using hk
      cases hq : q.update? <;> simp [pending, arriving, Mesh.drop_link, hl, hq]
  · simp [pending, arriving, hsrc, Mesh.drop_link, Ne.symm hsrc]

theorem link_drop_of_ne {t : Mesh Node Peer Payload} {src dst a b : Node} (k : ℕ)
    (h : ¬ (a = src ∧ b = dst)) : (t.drop src dst k).link a b = t.link a b := by
  rw [Mesh.drop_link, if_neg h]

/-- Taking a packet off another link changes nothing between the two. -/
theorem CatchesUp.drop {a b src dst : Node} {t : Mesh Node Peer Payload} (h : CatchesUp a b t)
    (k : ℕ) (hto : ¬ (a = src ∧ b = dst)) (hback : ¬ (b = src ∧ a = dst)) :
    CatchesUp a b (t.drop src dst k) := by
  intro u hu
  rw [pending, link_drop_of_ne k hto, link_drop_of_ne k hback]
  exact h u hu

theorem CatchesUp.step {a b : Node} (hab : a ≠ b) {t : Mesh Node Peer Payload}
    {e : MeshEvent Node PeerInput Int} (h : CatchesUp a b t) (ht : Sound t)
    (he : Reliable a b t e) : CatchesUp a b (peers.mesh.step t e).1 := by
  have hself : (t.party b).handler.grpSelf ≠ some a := fun h => hab (ht.grpSelf b a h)
  cases e with
  | own n i reach =>
    by_cases hna : n = a
    · subst hna
      refine catchesUp_perform_left hab (fun u hu => .inr (h u hu)) ?_
      rintro m now ⟨⟩ hid hu
      exact he rfl hid hu
    · by_cases hnb : n = b
      · subst hnb
        exact catchesUp_perform_right hab hself (ht.noBlocked n) h
      · exact catchesUp_perform_other hna hnb h
  | arrive src dst k keep now reach =>
    cases hk : (t.link src dst)[k]? with
    | none =>
      have hidle : peers.mesh.step t (.arrive src dst k keep now reach) = (t, []) := by
        simp [Parties.mesh, Parties.step, hk]
      rwa [hidle]
    | some p =>
      have hstep : peers.mesh.step t (.arrive src dst k keep now reach) =
          peers.perform (if keep then t else t.drop src dst k) dst (.packet src p now) reach := by
        simp [Parties.mesh, Parties.step, hk]
      rw [hstep]
      by_cases hda : dst = a
      · subst hda
        refine catchesUp_perform_left hab (fun u hu => ?_) (by rintro m now' ⟨⟩)
        cases keep with
        | true => exact .inr (h u hu)
        | false =>
          have hto : (t.drop src dst k).link dst b = t.link dst b :=
            link_drop_of_ne k fun h => hab h.2.symm
          rcases h u hu with hreq | hlast
          · rcases userReq_mem_drop hk hreq with ⟨rfl, rfl⟩ | hreq
            · exact .inl ⟨now, rfl, he.2 ⟨rfl, rfl⟩⟩
            · exact .inr (.inl hreq)
          · refine .inr (.inr ?_)
            have hpending : pending (t.drop src dst k) dst b = pending t dst b :=
              congrArg (List.filterMap Payload.update?) hto
            exact hpending ▸ hlast
      · by_cases hdb : dst = b
        · subst hdb
          cases keep with
          | true =>
            have hsrc : src ≠ a := fun hsrc => by simpa using (he.1 ⟨hsrc, rfl⟩).2
            refine catchesUp_perform_right hab hself (ht.noBlocked dst) fun u hu => ?_
            simpa [arriving, hsrc] using h u hu
          | false =>
            refine catchesUp_perform_right hab hself (ht.noBlocked dst) fun u hu => ?_
            have hback : (t.drop src dst k).link dst a = t.link dst a :=
              link_drop_of_ne k fun h => hab h.2
            have hlast := pending_drop hk (fun hsrc => (he.1 ⟨hsrc, rfl⟩).1) now
            have := h u hu
            rw [hlast, getLastD_toList_append] at this
            exact this.imp_left fun hreq => hback ▸ hreq
        · refine catchesUp_perform_other hda hdb ?_
          cases keep with
          | true => exact h
          | false => exact h.drop k (fun h => hdb h.2.symm) (fun h => hda h.2.symm)
  | lose src dst k =>
    exact h.drop k (fun h => he.1 ⟨h.1.symm, h.2.symm⟩) (fun h => he.2 ⟨h.1.symm, h.2.symm⟩)

/-- **Houses catch up.** When nothing is in flight between `a` and `b` after a run in which the links
between them were reliable, the entry of `b` for `a` shows what the GUI of `a` announced last. -/
theorem converges (base : Int) {a b : Node} (hab : a ≠ b) (es : Run)
    (hes : peers.mesh.Guarded (Reliable a b) (initial base) es)
    (hto : (peers.mesh.exec (initial base) es).link a b = [])
    (hback : (peers.mesh.exec (initial base) es).link b a = []) (u : User)
    (hu : entry (peers.mesh.exec (initial base) es) b a = some u) :
    u.profile = announced (peers.mesh.exec (initial base) es) a := by
  have hrun : CatchesUp a b (peers.mesh.exec (initial base) es) ∧
      Sound (peers.mesh.exec (initial base) es) := by
    refine peers.mesh.invariant (I := fun t => CatchesUp a b t ∧ Sound t) (C := Reliable a b)
      (fun t e ht he => ⟨ht.1.step hab ht.2 he, ht.2.step e⟩) ⟨?_, sound_initial base⟩ hes
    intro u hu
    simp [entry, initial, init, Handler.init] at hu
  have hlast := hrun.1 u hu
  simpa [pending, hto, hback] using hlast

/-- `b` gets to know `a`, whose GUI then announces a login. -/
def login (a b : Node) (u : User) : Run :=
  [.own b (.nodeAdded a 0) [], .arrive b a 0 false 0 [], .arrive a b 0 false 0 [],
    .own a (.message (.ofUser .user u 0 1) 0) [b], .arrive a b 0 false 0 []]

theorem converges_login :
    (entry (peers.mesh.exec (initial 1) (login ⟨1, 1⟩ ⟨2, 2⟩ { loginId := "ann" })) ⟨2, 2⟩
      ⟨1, 1⟩).map User.profile = some { loginId := "ann" } := by
  let t := peers.mesh.exec (initial 1) (login ⟨1, 1⟩ ⟨2, 2⟩ { loginId := "ann" })
  obtain ⟨u, hu⟩ : ∃ u, entry t ⟨2, 2⟩ ⟨1, 1⟩ = some u :=
    Option.isSome_iff_exists.1 (by decide +kernel)
  have hu' := converges 1 (a := ⟨1, 1⟩) (b := ⟨2, 2⟩) (by decide)
    (login ⟨1, 1⟩ ⟨2, 2⟩ { loginId := "ann" }) (by decide +kernel) (by decide +kernel)
    (by decide +kernel) u hu
  have hlast : announced t ⟨1, 1⟩ = { loginId := "ann" } := by decide +kernel
  exact (congrArg (Option.map User.profile) hu).trans (congrArg some (hu'.trans hlast))

end Peer

end RvHouse
