import RvHouse.Messaging.Message

/-!
# Blocked addresses

`networking::ip_block::store`: a set of blocked addresses and a list of blocked masked addresses.
Blocking is monotone: an address that is blocked stays so (`IpBlock.isBlocked_handleMessage`).
-/

namespace RvHouse

/-- `ip_block::store`. -/
structure IpBlock where
  store : List UInt32 := []
  ipMaskStore : List IpAndMask := []
deriving DecidableEq, Repr

namespace IpBlock

def inAddrAny : UInt32 := 0

def inAddrNone : UInt32 := 0xFFFFFFFF

def inAddrLoopback : UInt32 := 0x7F000001

/-- `store::is_blocked`. -/
def isBlocked (s : IpBlock) (ip : UInt32) : Bool :=
  s.store.contains ip || s.ipMaskStore.any fun i => ip &&& i.mask == i.ip

/-- `store::add`. -/
def add (s : IpBlock) (ip mask : UInt32) : IpBlock :=
  if ip ≠ inAddrAny ∧ ip ≠ inAddrLoopback ∧ ip ≠ inAddrNone ∧ mask ≠ inAddrAny then
    if mask = inAddrNone then { s with store := s.store.insert ip }
    else if ⟨ip &&& mask, mask⟩ ∈ s.ipMaskStore then s
    else { s with ipMaskStore := s.ipMaskStore ++ [⟨ip &&& mask, mask⟩] }
  else s

/-- `store::handle_message`: only `message_block_users` is read. -/
def handleMessage (s : IpBlock) (m : Message) : IpBlock :=
  match m.body with
  | .blockUsers _ ips _ => ips.foldl (fun s i => s.add i.ip i.mask) s
  | _ => s

theorem isBlocked_iff {s : IpBlock} {ip : UInt32} :
    s.isBlocked ip = true ↔ ip ∈ s.store ∨ ∃ i ∈ s.ipMaskStore, ip &&& i.mask = i.ip := by
  simp [isBlocked]

theorem isBlocked_add {s : IpBlock} {ip : UInt32} (h : s.isBlocked ip = true) (a m : UInt32) :
    (s.add a m).isBlocked ip = true := by
  rw [isBlocked_iff] at h ⊢
  unfold add
  split_ifs
  · exact h.imp_left List.mem_insert_of_mem
  · exact h
  · exact h.imp_right fun ⟨i, hi, hip⟩ => ⟨i, List.mem_append_left _ hi, hip⟩
  · exact h

/-- What is blocked stays blocked. -/
theorem isBlocked_handleMessage {s : IpBlock} {ip : UInt32} (h : s.isBlocked ip = true)
    (m : Message) : (s.handleMessage m).isBlocked ip = true := by
  obtain ⟨_, _, _, _, body⟩ := m
  cases body with
  | blockUsers _ ips _ =>
    simp only [handleMessage]
    induction ips generalizing s with
    | nil => exact h
    | cons i ips ih => exact ih (isBlocked_add h i.ip i.mask)
  | _ => exact h

end IpBlock

end RvHouse
