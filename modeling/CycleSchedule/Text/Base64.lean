import CycleSchedule.Text.Digit

/-! Bytes written with sixty-four characters, six bits each. -/

namespace CycleSchedule.Text

/-- The six bits that a character stands for. -/
def sextet? (c : Char) : Option Nat :=
  if 'A' ≤ c && c ≤ 'Z' then some (c.toNat - 0x41)
  else if 'a' ≤ c && c ≤ 'z' then some (c.toNat - 0x61 + 26)
  else if isAsciiDigit c then some (c.toNat - 0x30 + 52)
  else if c = '+' then some 62
  else if c = '/' then some 63
  else none

/-- The bytes of a run of characters of which `filled` have been read since the last whole group,
with `left` for the bits that are not yet part of a byte, and after `pads` marks for missing ones.
-/
def bytesFrom? (filled left pads : Nat) : List Char → Option (List UInt8)
  | [] => if filled = 0 then some [] else none
  | '=' :: rest =>
    -- Marks that fill up a group end the run.
    if filled < 2 then bytesFrom? filled left pads rest
    else if 4 ≤ filled + pads + 1 then some []
    else bytesFrom? filled left (pads + 1) rest
  | c :: rest => match sextet? c with
    -- Characters that stand for nothing are passed over.
    | none => bytesFrom? filled left pads rest
    | some bits => match filled with
      | 0 => bytesFrom? 1 bits 0 rest
      | 1 => (bytesFrom? 2 (bits % 16) 0 rest).map (UInt8.ofNat (left * 4 + bits / 16) :: ·)
      | 2 => (bytesFrom? 3 (bits % 4) 0 rest).map (UInt8.ofNat (left * 16 + bits / 4) :: ·)
      | _ => (bytesFrom? 0 0 0 rest).map (UInt8.ofNat (left * 64 + bits) :: ·)

/-- The bytes that a text stands for, if its last group is filled up. -/
def bytes64? (cs : List Char) : Option (List UInt8) := bytesFrom? 0 0 0 cs

end CycleSchedule.Text
