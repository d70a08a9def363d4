/-!
# PrefixCalc.Session.Sink

Where replies are written. A sink may have room for a limited number of bytes only; the write that
does not fit fills what is left and fails.
-/

namespace PrefixCalc

structure Sink where
  written : Array UInt8
  room : Option Nat

namespace Sink

def unlimited : Sink := { written := #[], room := none }

def limited (capacity : Nat) : Sink := { written := #[], room := some capacity }

/-- The sink after the write, as an error if it is full. -/
def write (s : Sink) (bytes : List UInt8) : Except Sink Sink :=
  match s.room with
  | none => .ok { s with written := s.written ++ bytes }
  | some n =>
    if bytes.length ≤ n then
      .ok { written := s.written ++ bytes, room := some (n - bytes.length) }
    else .error { written := s.written ++ bytes.take n, room := some 0 }

theorem write_unlimited {s : Sink} (h : s.room = none) (bytes : List UInt8) :
    s.write bytes = .ok { s with written := s.written ++ bytes } := by
  simp only [write, h]

theorem write_fits {s : Sink} {n : Nat} {bytes : List UInt8} (h : s.room = some n)
    (hn : bytes.length ≤ n) :
    s.write bytes = .ok { written := s.written ++ bytes, room := some (n - bytes.length) } := by
  simp only [write, h, if_pos hn]

theorem write_full {s : Sink} {n : Nat} {bytes : List UInt8} (h : s.room = some n)
    (hn : n < bytes.length) :
    s.write bytes = .error { written := s.written ++ bytes.take n, room := some 0 } := by
  simp only [write, h, if_neg (Nat.not_le.mpr hn)]

end Sink
end PrefixCalc
