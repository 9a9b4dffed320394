import PocketBasic.Terminal.Key

/-! # Reading keys

Typed bytes arrive in packets. One read takes at most 32 bytes and never more than one packet holds;
what is left of a packet is read next. An escape byte that is read alone may be the start of a
sequence still under way, so one more read is made for the rest of it. What was read is one key.
-/

namespace PocketBasic.Terminal

/-- Bytes of one read at most. -/
def readSize : Nat := 32

/-- Puts back what a read has left of a packet. -/
def putBack (left : List UInt8) (packets : List (List UInt8)) : List (List UInt8) :=
  if left.isEmpty then packets else left :: packets

/-- Reads at most so many bytes of the first packet. -/
def read (limit : Nat) : List (List UInt8) → List UInt8 × List (List UInt8)
  | [] => ([], [])
  | packet :: rest => (packet.take limit, putBack (packet.drop limit) rest)

/-- Reads the bytes of one key, if there is anything to read. -/
def readKeyBytes (packets : List (List UInt8)) : List UInt8 × List (List UInt8) :=
  let (bytes, rest) := read readSize packets
  if bytes = [27] then
    let (more, rest) := read (readSize - 1) rest
    (bytes ++ more, rest)
  else (bytes, rest)

/-- Bytes and packets that are left to read. -/
def unread (packets : List (List UInt8)) : Nat :=
  (packets.map fun p => p.length + 1).foldr (· + ·) 0

theorem unread_putBack_le (left : List UInt8) (packets : List (List UInt8)) :
    unread (putBack left packets) ≤ left.length + 1 + unread packets := by
  unfold putBack
  split
  · omega
  · simp [unread]

theorem unread_read_le (limit : Nat) (packets : List (List UInt8)) :
    unread (read limit packets).2 ≤ unread packets := by
  cases packets with
  | nil => simp [read]
  | cons packet rest =>
      have h := unread_putBack_le (packet.drop limit) rest
      simp only [read, unread, List.map_cons, List.foldr_cons, List.length_drop] at *
      omega

theorem unread_read_lt {limit : Nat} (hlimit : 0 < limit) {packet : List UInt8}
    {rest : List (List UInt8)} :
    unread (read limit (packet :: rest)).2 < unread (packet :: rest) := by
  have h := unread_putBack_le (packet.drop limit) rest
  simp only [read, unread, List.map_cons, List.foldr_cons, List.length_drop] at *
  by_cases hp : packet.length = 0
  · simp only [List.length_eq_zero_iff] at hp
    subst hp
    simp [putBack]
  · omega

theorem unread_readKeyBytes_lt (packet : List UInt8) (rest : List (List UInt8)) :
    unread (readKeyBytes (packet :: rest)).2 < unread (packet :: rest) := by
  have h : unread (read readSize (packet :: rest)).2 < unread (packet :: rest) :=
    unread_read_lt (by decide)
  simp only [readKeyBytes]
  split
  · exact Nat.lt_of_le_of_lt (unread_read_le _ _) h
  · exact h

/-- The keys of packets that hold something, read until nothing is left. -/
def keysOf : List (List UInt8) → List Key
  | [] => []
  | packet :: rest =>
      let next := readKeyBytes (packet :: rest)
      Key.ofBytes next.1 :: keysOf next.2
termination_by packets => unread packets
decreasing_by exact unread_readKeyBytes_lt packet rest

/-- The keys of the packets. An empty packet is none. -/
def keys (packets : List (List UInt8)) : List Key :=
  keysOf (packets.filter fun packet => !packet.isEmpty)

end PocketBasic.Terminal
