import CycleSchedule.Problem.Basic
import CycleSchedule.Proofs.Document.Grammar
import CycleSchedule.Proofs.Phrase
import Mathlib.Algebra.Order.Ring.Int
import Mathlib.Data.List.Basic

/-! Dependences that are written in one line read back as they were, whatever arrows and signs their
names hold, unless their distance is too long a number to be read. -/

namespace CycleSchedule

namespace Text

/-- An ASCII digit is one of the script whose zero comes first. -/
theorem digitValue?_of_isDigit {c : Char} (digit : c.isDigit = true) :
    digitValue? c = some (c.toNat - '0'.toNat) := by
  obtain ⟨low, high⟩ := Char.isDigit_iff_toNat.mp digit
  -- The ASCII digits are the first block of the table, so the search ends at once.
  have isFirst : (decide (0x30 ≤ c.toNat) && decide (c.toNat < 0x30 + 10)) = true := by
    simp only [Bool.and_eq_true, decide_eq_true_eq]
    exact ⟨low, Nat.lt_succ_of_le high⟩
  have found : digitZeros.find? (fun first => first ≤ c.toNat && c.toNat < first + 10) =
      some 0x30 := List.find?_cons_of_pos isFirst
  rw [digitValue?, found]
  rfl

/-- The digits of a number spell it. -/
theorem digitsValue_toDigits (n : Nat) : digitsValue (Nat.toDigits 10 n) = n := by
  -- On ASCII digits the two ways to read a character agree, and the fold is the library's.
  have step : ∀ total, ∀ c ∈ Nat.toDigits 10 n, 10 * total + (digitValue? c).getD 0 =
      10 * total + (c.toNat - '0'.toNat) := fun total c member => by
    rw [digitValue?_of_isDigit (Nat.isDigit_of_mem_toDigits (by decide) (by decide) member),
      Option.getD_some]
  calc digitsValue (Nat.toDigits 10 n)
      = Nat.ofDigitChars 10 (Nat.toDigits 10 n) 0 := List.foldl_ext _ _ 0 step
    _ = n := Nat.ofDigitChars_toDigits (by decide) (by decide)

end Text

namespace Document

/-- The digits of a number are digits. -/
theorem digits_toDigits (n : Nat) : Digits (Nat.toDigits 10 n) := fun c member => by
  rw [Text.isDigit, Text.digitValue?_of_isDigit
    -- A digit in base ten is one that is recognised.
    (Nat.isDigit_of_mem_toDigits (by decide) (by decide) member)]
  rfl

/-- A number is short enough to be read if it is smaller than the first one that is too long. -/
theorem length_toDigits_le_iff {n : Nat} :
    (Nat.toDigits 10 n).length ≤ Text.digitLimit ↔ n < 10 ^ Text.digitLimit :=
  Nat.length_toDigits_le_iff (by decide) (by decide)

variable {source destination : String} {tail digits : List Char}

/-- Where spaces set the parts of a line apart, there is no other way to split it. -/
theorem shorthand?_apart (isSource : Word source.toList) (isDestination : Word destination.toList)
    (ends : distance? tail = some digits) (apart : ∀ c rest, tail = c :: rest →
      Text.isBlank c = true) :
    shorthand? (source ++ " -> " ++ destination ++ String.ofList tail) =
      some (source, destination, digits) := by
  have space : Blank [' '] := by decide
  have isRead : destination? ([' '] ++ (destination.toList ++ tail)) =
      some (String.ofList destination.toList, digits) := by
    refine destination?_eq space isDestination.nonempty isDestination.solid ends
      fun more rest notEmpty solid parts => ?_
    -- The destination cannot go on in white space.
    cases tail with
    | nil => exact absurd (List.append_eq_nil_iff.mp parts).1 notEmpty
    | cons c tail => exact absurd (solid.eq_nil (apart c tail rfl) parts) notEmpty
  have empty : Blank [] := by decide
  have isCut := shorthand?_cut empty space isSource.nonempty isSource.solid isRead
    fun more rest behind notEmpty solid parts _ =>
      -- Nor can the source.
      absurd (solid.eq_nil (by decide) parts) notEmpty
  have line : source ++ " -> " ++ destination ++ String.ofList tail =
      String.ofList ([] ++ (source.toList ++ ([' '] ++ '-' :: '>' ::
        ([' '] ++ (destination.toList ++ tail))))) := by
    rw [← String.toList_inj]
    simp
  rw [line, isCut, String.ofList_toList, String.ofList_toList]

/-- An arrow between two names has no distance behind it. -/
theorem shorthand?_arrow (isSource : Word source.toList) (isDestination : Word destination.toList) :
    shorthand? (source ++ " -> " ++ destination) = some (source, destination, []) := by
  have ends : distance? [] = some [] := rfl
  have parts := shorthand?_apart isSource isDestination ends (by simp)
  rwa [String.ofList_nil, String.append_empty] at parts

/-- Behind a sign there is the number that was written. -/
theorem shorthand?_signed (isSource : Word source.toList) (isDestination : Word destination.toList)
    (n : Nat) : shorthand? (source ++ " -> " ++ destination ++ " @ " ++ toString n) =
      some (source, destination, Nat.toDigits 10 n) := by
  have ends : distance? ([' '] ++ '@' :: ([' '] ++ (Nat.toDigits 10 n ++ []))) =
      some (Nat.toDigits 10 n) :=
    distance?_digits (by decide) (by decide) (by decide) (digits_toDigits n) Nat.toDigits_ne_nil
  have parts := shorthand?_apart isSource isDestination ends (fun c rest same => by
    obtain ⟨rfl, -⟩ := List.cons.inj same
    decide)
  -- The printed text and the line in parts are the same characters.
  have line : source ++ " -> " ++ destination ++
      String.ofList ([' '] ++ '@' :: ([' '] ++ (Nat.toDigits 10 n ++ []))) =
        source ++ " -> " ++ destination ++ " @ " ++ toString n := by
    rw [← String.toList_inj]
    simp
  rw [line] at parts
  exact parts

/-- An arrow between two names reads as a dependence within one iteration. -/
theorem readShorthand_arrow (isSource : Word source.toList)
    (isDestination : Word destination.toList) :
    readShorthand (source ++ " -> " ++ destination) = .ok ⟨source, destination, 0⟩ :=
  readShorthand_of_shorthand? (shorthand?_arrow isSource isDestination)

/-- With a sign and a number behind it, it reads as a dependence over as many iterations, if the
number is not too long. -/
theorem readShorthand_signed (isSource : Word source.toList)
    (isDestination : Word destination.toList) (n : Nat) :
    readShorthand (source ++ " -> " ++ destination ++ " @ " ++ toString n) =
      if n < 10 ^ Text.digitLimit then .ok ⟨source, destination, n⟩
      else .error (.longNumber (toString n).length) := by
  have length : (toString n).length = (Nat.toDigits 10 n).length := by
    rw [← String.length_toList]
    simp
  rw [readShorthand_of_shorthand? (shorthand?_signed isSource isDestination n),
    Text.digitsValue_toDigits, length]
  -- The limit is on the digits, the statement on the number; ten to the limit parts both alike.
  by_cases short : n < 10 ^ Text.digitLimit
  · rw [if_pos short, if_neg (not_lt.mpr (length_toDigits_le_iff.mpr short))]
  · rw [if_neg short, if_pos (not_le.mp (mt length_toDigits_le_iff.mp short))]

end Document

open Document

variable {dependence : Dependence Int}

/-- A dependence that can be written in one line: both names are words, and the distance is not
negative. -/
structure Dependence.Spellable (dependence : Dependence Int) : Prop where
  source : Word dependence.source.toList
  destination : Word dependence.destination.toList
  nonneg : 0 ≤ dependence.distance

namespace Dependence

/-- A distance of zero is left out. -/
theorem spelled_arrow (now : dependence.distance = 0) :
    dependence.text.spelled = dependence.source ++ " -> " ++ dependence.destination := by
  simp [text, Quantity.isVoid, now]

/-- Any other distance is spelled out. -/
theorem spelled_signed (later : dependence.distance ≠ 0) :
    dependence.text.spelled =
      dependence.source ++ " -> " ++ dependence.destination ++ " @ " ++
        toString dependence.distance := by
  simp [text, Quantity.isVoid, Quantity.text, later]

/-- A distance that can be written is a number that digits spell. -/
theorem Spellable.exists_nat (spellable : dependence.Spellable) :
    ∃ n : Nat, dependence.distance = n ∧ toString dependence.distance = toString n := by
  obtain ⟨n, isNat⟩ := Int.eq_ofNat_of_zero_le spellable.nonneg
  exact ⟨n, isNat, by rw [isNat]; rfl⟩

/-- The parts of a line are those of the dependence that it was written for. -/
theorem Spellable.shorthand?_text (spellable : dependence.Spellable) :
    ∃ digits, shorthand? dependence.text.spelled =
        some (dependence.source, dependence.destination, digits) ∧
      dependence.distance = Text.digitsValue digits := by
  -- A distance of zero is printed as a bare arrow, without digits.
  by_cases now : dependence.distance = 0
  · refine ⟨[], ?_, now⟩
    rw [spelled_arrow now]
    exact shorthand?_arrow spellable.source spellable.destination
  · obtain ⟨n, isNat, numeral⟩ := spellable.exists_nat
    refine ⟨Nat.toDigits 10 n, ?_, ?_⟩
    · rw [spelled_signed now, numeral]
      exact shorthand?_signed spellable.source spellable.destination n
    · rw [isNat, Text.digitsValue_toDigits]

/-- No two dependences are written alike. -/
theorem Spellable.eq_of_text {other : Dependence Int} (spellable : dependence.Spellable)
    (otherSpellable : other.Spellable) (same : other.text.spelled = dependence.text.spelled) :
    other = dependence := by
  obtain ⟨digits, parts, value⟩ := spellable.shorthand?_text
  obtain ⟨otherDigits, otherParts, otherValue⟩ := otherSpellable.shorthand?_text
  -- Both are made of the same parts.
  rw [same, parts] at otherParts
  obtain ⟨sources, rest⟩ := Prod.mk.inj (Option.some.inj otherParts)
  obtain ⟨destinations, isDigits⟩ := Prod.mk.inj rest
  cases other
  cases dependence
  simp_all

/-- A line that spells out the distance is read as the dependence that it was written for, unless
the distance is too long a number. -/
theorem Spellable.readShorthand_signed_eq (spellable : dependence.Spellable) :
    readShorthand (dependence.source ++ " -> " ++ dependence.destination ++ " @ " ++
        toString dependence.distance) =
      if dependence.distance < 10 ^ Text.digitLimit then .ok dependence
      else .error (.longNumber (toString dependence.distance).length) := by
  obtain ⟨source, destination, distance⟩ := dependence
  -- The distance is not negative, so it is a natural number with the same digits.
  obtain ⟨n, rfl, numeral⟩ := spellable.exists_nat
  have bound : (n : Int) < 10 ^ Text.digitLimit ↔ n < 10 ^ Text.digitLimit := by
    exact_mod_cast Iff.rfl
  simp only [bound, numeral]
  exact readShorthand_signed spellable.source spellable.destination n

/-- So is the line that leaves out a distance of zero. -/
theorem Spellable.readShorthand_text_eq (spellable : dependence.Spellable) :
    readShorthand dependence.text.spelled =
      if dependence.distance < 10 ^ Text.digitLimit then .ok dependence
      else .error (.longNumber (toString dependence.distance).length) := by
  by_cases now : dependence.distance = 0
  · -- Zero is short enough.
    have short : dependence.distance < 10 ^ Text.digitLimit := by
      rw [now]
      exact Int.pow_pos (by decide)
    rw [spelled_arrow now, readShorthand_arrow spellable.source spellable.destination, if_pos short,
      ← now]
  · rw [spelled_signed now, spellable.readShorthand_signed_eq]

end Dependence

/-- The line of a dependence can be written, and the dependence is read back from it, unless its
distance is too long a number. Even then no other dependence is spelled in the same way. -/
theorem readShorthand_text (dependence : Dependence Int) (spellable : dependence.Spellable) :
    dependence.text.write? =
        (if dependence.distance < 10 ^ Text.digitLimit then some dependence.text.spelled
        else none) ∧
      readShorthand dependence.text.spelled =
        (if dependence.distance < 10 ^ Text.digitLimit then .ok dependence
        else .error (.longNumber (toString dependence.distance).length)) ∧
      ∀ other : Dependence Int, other.Spellable → other.text.spelled = dependence.text.spelled →
        other = dependence := by
  refine ⟨?_, spellable.readShorthand_text_eq, ?_⟩
  · -- The distance is not negative, so its sign takes no part.
    have short : Text.isWritable dependence.distance = true ↔
        dependence.distance < 10 ^ Text.digitLimit := by
      rw [Text.isWritable_iff_abs, abs_of_nonneg spellable.nonneg]
    simp only [Phrase.write?_eq, dependence.isWritable_text, short]
  · intro other otherSpellable same
    exact spellable.eq_of_text otherSpellable same

/-- Names that hold arrows, signs and digits are told apart by the spaces. -/
theorem readShorthand_text_arrows :
    (⟨"a->b@1", "->@2", 3⟩ : Dependence Int).Spellable ∧
      readShorthand "a->b@1 -> ->@2 @ 3" = .ok ⟨"a->b@1", "->@2", 3⟩ ∧
      ∀ other : Dependence Int, other.Spellable → other.text.spelled = "a->b@1 -> ->@2 @ 3" →
        other = ⟨"a->b@1", "->@2", 3⟩ := by
  have spellable : (⟨"a->b@1", "->@2", 3⟩ : Dependence Int).Spellable :=
    ⟨⟨by decide, by decide⟩, ⟨by decide, by decide⟩, by decide⟩
  have text : (⟨"a->b@1", "->@2", 3⟩ : Dependence Int).text.spelled = "a->b@1 -> ->@2 @ 3" := by
    decide
  -- The power is too large to be computed, so it is bounded from below.
  have short : (3 : Int) < 10 ^ Text.digitLimit :=
    calc (3 : Int) < 10 ^ 1 := by decide
      _ ≤ 10 ^ Text.digitLimit := pow_le_pow_right₀ (by decide) (by decide)
  obtain ⟨-, isRead, alone⟩ := readShorthand_text _ spellable
  rw [text] at isRead alone
  exact ⟨spellable, isRead.trans (if_pos short), alone⟩

/-- A dependence over the least number of iterations that is too long to be read. -/
def Dependence.overlong : Dependence Int := ⟨"a", "b", 10 ^ Text.digitLimit⟩

/-- The overlong dependence has names that can be spelled. -/
theorem Dependence.spellable_overlong : Dependence.overlong.Spellable :=
  ⟨⟨by decide, by decide⟩, ⟨by decide, by decide⟩, Int.pow_nonneg (by decide)⟩

/-- The distance of the overlong dependence has more digits than can be read. -/
theorem Dependence.not_short_overlong : ¬ Dependence.overlong.distance < 10 ^ Text.digitLimit :=
  Int.lt_irrefl _

/-- Its line cannot be written, and would not read back. -/
theorem readShorthand_text_overlong :
    Dependence.overlong.Spellable ∧ Dependence.overlong.text.write? = none ∧
      readShorthand Dependence.overlong.text.spelled ≠ .ok Dependence.overlong := by
  refine ⟨Dependence.spellable_overlong, ?_, ?_⟩
  · -- The digits of the distance are what makes the text unwritable.
    have long : ¬Dependence.overlong.text.isWritable = true := by
      rw [Dependence.isWritable_text, Text.isWritable_iff_abs,
        abs_of_nonneg Dependence.spellable_overlong.nonneg]
      exact Dependence.not_short_overlong
    rw [Phrase.write?_eq, if_neg long]
  · rw [Dependence.spellable_overlong.readShorthand_text_eq, if_neg Dependence.not_short_overlong]
    exact fun same => nomatch same

end CycleSchedule
