import Mathlib.Data.List.Dedup
import RvHouse.Lib.Distinct
import RvHouse.Networking.IpBlock

/-!
# What is blocked

The store of blocked addresses has two containers. `blocks` says what they amount to: after any
calls of `add`, exactly those addresses are blocked that agree with an accepted call under its mask,
whatever the mask; neither the order of the calls nor their repetition matters, and a repeated call
adds nothing (`add_of_mem`).
-/

namespace RvHouse

/-- The entries that `store::handle_message` adds. -/
def Message.ips (m : Message) : List IpAndMask :=
  match m.body with
  | .blockUsers _ ips _ => ips
  | _ => []

namespace IpBlock

/-- `store::is_blocked`, with its way out when nothing is stored. -/
def isBlockedEarly (s : IpBlock) (ip : UInt32) : Bool :=
  if s.ipMaskStore.length = 0 ∧ s.store.length = 0 then false
  else if s.store.contains ip then true
  else s.ipMaskStore.any fun i => ip &&& i.mask == i.ip

/-- `store::size`. -/
def size (s : IpBlock) : ℕ := s.store.length + s.ipMaskStore.length

/-- Calls of `store::add`, in order. -/
def addAll (s : IpBlock) (cs : List IpAndMask) : IpBlock :=
  cs.foldl (fun s c => s.add c.ip c.mask) s

/-- The sanity checks of `store::add`. -/
def Accepted (c : IpAndMask) : Prop :=
  c.ip ≠ inAddrAny ∧ c.ip ≠ inAddrLoopback ∧ c.ip ≠ inAddrNone ∧ c.mask ≠ inAddrAny

instance (c : IpAndMask) : Decidable (Accepted c) :=
  inferInstanceAs (Decidable (_ ∧ _))

/-- The address agrees with the entry under its mask. -/
def Covers (c : IpAndMask) (x : UInt32) : Prop := x &&& c.mask = c.ip &&& c.mask

instance (c : IpAndMask) (x : UInt32) : Decidable (Covers c x) :=
  inferInstanceAs (Decidable (_ = _))

/-- What the calls `cs` on an empty store amount to. -/
structure Blocks (cs : List IpAndMask) : Prop where
  blocked : ∀ x, (addAll {} cs).isBlockedEarly x = true ↔
    ∃ c ∈ cs, (c.ip ≠ inAddrAny ∧ c.ip ≠ inAddrLoopback ∧ c.ip ≠ inAddrNone ∧ c.mask ≠ 0) ∧
      x &&& c.mask = c.ip &&& c.mask
  order : ∀ cs', (∀ c, c ∈ cs' ↔ c ∈ cs) →
    (∀ x, (addAll {} cs').isBlockedEarly x = (addAll {} cs).isBlockedEarly x) ∧
      (addAll {} cs').size = (addAll {} cs).size
  repeated : ∀ c ∈ cs, (addAll {} (cs ++ [c])).size = (addAll {} cs).size
  message : ∀ m : Message, (addAll {} cs).handleMessage m = addAll {} (cs ++ m.ips)

/-! ## One call -/

theorem isBlockedEarly_eq (s : IpBlock) (ip : UInt32) : s.isBlockedEarly ip = s.isBlocked ip := by
  unfold isBlockedEarly isBlocked
  split
  · rename_i h
    rw [List.eq_nil_of_length_eq_zero h.1, List.eq_nil_of_length_eq_zero h.2]
    rfl
  · cases s.store.contains ip <;> rfl

/-- The call is kept as an exact address. -/
def Exact (c : IpAndMask) (x : UInt32) : Prop := Accepted c ∧ c.mask = inAddrNone ∧ c.ip = x

/-- The call is kept as a masked address. -/
def Masked (c i : IpAndMask) : Prop :=
  Accepted c ∧ c.mask ≠ inAddrNone ∧ (⟨c.ip &&& c.mask, c.mask⟩ : IpAndMask) = i

theorem mem_store_add (s : IpBlock) (c : IpAndMask) (x : UInt32) :
    x ∈ (s.add c.ip c.mask).store ↔ x ∈ s.store ∨ Exact c x := by
  unfold add Exact Accepted
  split
  · rename_i hacc
    split
    · rename_i hmask
      rw [List.mem_insert_iff, or_comm, and_iff_right hacc, and_iff_right hmask, eq_comm]
    · rename_i hmask
      split <;> simp [hmask]
  · rename_i hacc
    simp [hacc]

theorem mem_ipMaskStore_add (s : IpBlock) (c i : IpAndMask) :
    i ∈ (s.add c.ip c.mask).ipMaskStore ↔ i ∈ s.ipMaskStore ∨ Masked c i := by
  unfold add Masked Accepted
  split
  · rename_i hacc
    split
    · rename_i hmask
      simp [hmask]
    · rename_i hmask
      split
      · rename_i hmem
        refine ⟨.inl, fun h => h.elim (fun hi => hi) ?_⟩
        rintro ⟨-, -, rfl⟩
        exact hmem
      · rw [List.mem_append, List.mem_singleton, and_iff_right hacc, and_iff_right hmask, eq_comm]
  · rename_i hacc
    simp [hacc]

/-- Nothing is stored twice. -/
structure Once (s : IpBlock) : Prop where
  store : s.store.Nodup
  ipMaskStore : s.ipMaskStore.Nodup

theorem Once.add {s : IpBlock} (h : s.Once) (ip mask : UInt32) : (s.add ip mask).Once := by
  unfold IpBlock.add
  split
  · split
    · exact ⟨h.store.insert, h.ipMaskStore⟩
    · split
      · exact h
      · rename_i hnew
        refine ⟨h.store, List.nodup_append.2 ⟨h.ipMaskStore, List.nodup_singleton _, ?_⟩⟩
        intro i hi j hj hij
        rw [List.mem_singleton.1 hj] at hij
        exact hnew (hij ▸ hi)
  · exact h

/-- A call whose entry is there changes nothing. -/
theorem add_eq_self {s : IpBlock} {c : IpAndMask}
    (h : Accepted c → if c.mask = inAddrNone then c.ip ∈ s.store
      else (⟨c.ip &&& c.mask, c.mask⟩ : IpAndMask) ∈ s.ipMaskStore) :
    s.add c.ip c.mask = s := by
  unfold add
  split
  · rename_i hacc
    have hmem := h hacc
    split
    · rename_i hmask
      rw [if_pos hmask] at hmem
      rw [List.insert_of_mem hmem]
    · rename_i hmask
      rw [if_neg hmask] at hmem
      rw [if_pos hmem]
  · rfl

/-! ## Calls -/

theorem addAll_append (s : IpBlock) (cs cs' : List IpAndMask) :
    s.addAll (cs ++ cs') = (s.addAll cs).addAll cs' := List.foldl_append

theorem mem_store_addAll (cs : List IpAndMask) (x : UInt32) :
    x ∈ (addAll {} cs).store ↔ ∃ c ∈ cs, Exact c x := by
  have hrun := Distinct.foldl_gains (Q := fun s : IpBlock => x ∈ s.store)
    (fun s c => mem_store_add s c x) cs {}
  rw [addAll, hrun]
  simp

theorem mem_ipMaskStore_addAll (cs : List IpAndMask) (i : IpAndMask) :
    i ∈ (addAll {} cs).ipMaskStore ↔ ∃ c ∈ cs, Masked c i := by
  have hrun := Distinct.foldl_gains (Q := fun s : IpBlock => i ∈ s.ipMaskStore)
    (fun s c => mem_ipMaskStore_add s c i) cs {}
  rw [addAll, hrun]
  simp

theorem once_addAll {s : IpBlock} (h : s.Once) (cs : List IpAndMask) : (s.addAll cs).Once := by
  induction cs generalizing s with
  | nil => exact h
  | cons c cs ih => exact ih (h.add c.ip c.mask)

theorem once_empty : ({} : IpBlock).Once := ⟨List.nodup_nil, List.nodup_nil⟩

/-- An exact address is an address under the full mask. -/
theorem covers_of_full {c : IpAndMask} (h : c.mask = inAddrNone) (x : UInt32) :
    Covers c x ↔ x = c.ip := by
  have hfull : (inAddrNone : UInt32) = -1 := by decide
  rw [Covers, h, hfull, UInt32.and_neg_one, UInt32.and_neg_one]

/-- **What is blocked after calls of `add`.** -/
theorem isBlocked_addAll (cs : List IpAndMask) (x : UInt32) :
    (addAll {} cs).isBlocked x = true ↔ ∃ c ∈ cs, Accepted c ∧ Covers c x := by
  simp only [isBlocked_iff, mem_store_addAll, mem_ipMaskStore_addAll]
  constructor
  · rintro (⟨c, hc, hacc, hfull, rfl⟩ | ⟨i, ⟨c, hc, hacc, -, rfl⟩, hi⟩)
    · exact ⟨c, hc, hacc, rfl⟩
    · exact ⟨c, hc, hacc, hi⟩
  · rintro ⟨c, hc, hacc, hcov⟩
    by_cases hmask : c.mask = inAddrNone
    · exact .inl ⟨c, hc, hacc, hmask, ((covers_of_full hmask x).1 hcov).symm⟩
    · exact .inr ⟨_, ⟨c, hc, hacc, hmask, rfl⟩, hcov⟩

/-- A call that was made changes nothing when it is made again. -/
theorem add_of_mem {cs : List IpAndMask} {c : IpAndMask} (h : c ∈ cs) :
    (addAll {} cs).add c.ip c.mask = addAll {} cs := by
  apply add_eq_self
  intro hacc
  split
  · rename_i hmask
    exact (mem_store_addAll cs c.ip).2 ⟨c, h, hacc, hmask, rfl⟩
  · rename_i hmask
    exact (mem_ipMaskStore_addAll cs _).2 ⟨c, h, hacc, hmask, rfl⟩

theorem size_addAll_congr {cs cs' : List IpAndMask} (h : ∀ c, c ∈ cs' ↔ c ∈ cs) :
    (addAll {} cs').size = (addAll {} cs).size := by
  have honce := once_addAll once_empty cs
  have honce' := once_addAll once_empty cs'
  have hstore : (addAll {} cs').store.Perm (addAll {} cs).store := by
    refine (List.perm_ext_iff_of_nodup honce'.store honce.store).2 fun x => ?_
    simp only [mem_store_addAll, h]
  have hmask : (addAll {} cs').ipMaskStore.Perm (addAll {} cs).ipMaskStore := by
    refine (List.perm_ext_iff_of_nodup honce'.ipMaskStore honce.ipMaskStore).2 fun i => ?_
    simp only [mem_ipMaskStore_addAll, h]
  rw [size, size, hstore.length_eq, hmask.length_eq]

theorem handleMessage_eq (s : IpBlock) (m : Message) : s.handleMessage m = s.addAll m.ips := by
  obtain ⟨_, _, _, _, body⟩ := m
  cases body <;> rfl

/-- **The store of blocked addresses**, after any calls. -/
theorem blocks (cs : List IpAndMask) : Blocks cs where
  blocked x := by
    rw [isBlockedEarly_eq, isBlocked_addAll]
    rfl
  order cs' h := by
    refine ⟨fun x => ?_, size_addAll_congr h⟩
    rw [isBlockedEarly_eq, isBlockedEarly_eq, Bool.eq_iff_iff, isBlocked_addAll, isBlocked_addAll]
    simp only [h]
  repeated c hc := by
    rw [addAll_append]
    exact congrArg size (add_of_mem hc)
  message m := by rw [handleMessage_eq, addAll_append]

/-- A mask with holes: 10.x.0.y is blocked for all x and y. -/
example : (addAll {} [⟨0x0A010002, 0xFF00FF00⟩]).isBlockedEarly 0x0A630077 = true := by decide

end IpBlock

end RvHouse
