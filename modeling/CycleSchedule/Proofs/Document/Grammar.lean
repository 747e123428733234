import CycleSchedule.Proofs.Document.Shorthand
import Mathlib.Order.WellFounded

/-! The lines that spell a dependence. A line may be split into its parts in more than one way,
since names can hold arrows and signs; reading finds a split where there is one, and takes the one
with the longest source and then the longest destination. -/

namespace CycleSchedule.Document

/-- A name as it stands in a line: something without white space. -/
structure Word (cs : List Char) : Prop where
  nonempty : cs ≠ []
  solid : Solid cs

/-- How a line ends behind its destination: in white space, or in a sign and the digits of a
distance with white space around them. -/
inductive Ends : List Char → List Char → Prop
  | undelayed {blank : List Char} (isBlank : Blank blank) : Ends blank []
  | delayed {before between after digits : List Char} (beforeBlank : Blank before)
      (betweenBlank : Blank between) (afterBlank : Blank after) (isDigits : Digits digits)
      (nonempty : digits ≠ []) :
      Ends (before ++ '@' :: (between ++ (digits ++ after))) digits

/-- A line is a source, an arrow, a destination and an end, with white space around both names. -/
inductive Splits : List Char → List Char → List Char → List Char → Prop
  | parts {left source right between destination tail digits : List Char}
      (leftBlank : Blank left) (isSource : Word source) (rightBlank : Blank right)
      (betweenBlank : Blank between) (isDestination : Word destination) (ends : Ends tail digits) :
      Splits (left ++ (source ++ (right ++ '-' :: '>' :: (between ++ (destination ++ tail)))))
        source destination digits

/-- A split with the longest source there is, and with the longest destination behind that source.
-/
structure Longest (line source destination digits : List Char) : Prop where
  splits : Splits line source destination digits
  source_le : ∀ first second rest, Splits line first second rest → first.length ≤ source.length
  destination_le : ∀ second rest, Splits line source second rest →
    second.length ≤ destination.length

variable {cs before after tail blank digits line source destination : List Char}

/-- The source is no longer than the line. -/
theorem Splits.length_source_le (splits : Splits line source destination digits) :
    source.length ≤ line.length := by
  cases splits with
  | parts => simp only [List.length_append]; omega

/-- The destination is no longer than the line. -/
theorem Splits.length_destination_le (splits : Splits line source destination digits) :
    destination.length ≤ line.length := by
  cases splits with
  | parts => simp only [List.length_append, List.length_cons]; omega

/-- Of things with bounded sizes one has the greatest. -/
theorem exists_greatest {α : Type} {P : α → Prop} (size : α → Nat) (bound : Nat)
    (bounded : ∀ a, P a → size a ≤ bound) (some_ : ∃ a, P a) :
    ∃ a, P a ∧ ∀ b, P b → size b ≤ size a := by
  -- What is left up to the bound has a least value.
  obtain ⟨a, holds, least⟩ := (measure fun a => bound - size a).wf.has_min {a | P a} some_
  refine ⟨a, holds, fun b holdsToo => ?_⟩
  have notLess : ¬bound - size b < bound - size a := least b holdsToo
  have := bounded b holdsToo
  omega

/-- A line that can be split at all has a longest split. -/
theorem Splits.exists_longest (splits : Splits line source destination digits) :
    ∃ source destination digits, Longest line source destination digits := by
  -- The source is chosen first, and the destination only among the splits with that source.
  obtain ⟨longest, ⟨second, rest, some_⟩, sourceLe⟩ :=
    exists_greatest (P := fun source => ∃ destination digits,
      Splits line source destination digits) List.length line.length
      (fun _ ⟨_, _, splits⟩ => splits.length_source_le) ⟨source, destination, digits, splits⟩
  obtain ⟨last, ⟨digits, taken⟩, destinationLe⟩ :=
    exists_greatest (P := fun destination => ∃ digits, Splits line longest destination digits)
      List.length line.length (fun _ ⟨_, splits⟩ => splits.length_destination_le)
      ⟨second, rest, some_⟩
  exact ⟨longest, last, digits, taken, fun first second rest splits =>
    sourceLe first ⟨second, rest, splits⟩, fun second rest splits =>
    destinationLe second ⟨rest, splits⟩⟩

/-- A text is white space and what is left after it. -/
theorem exists_blank_append_skipBlank (cs : List Char) :
    ∃ blank, Blank blank ∧ blank ++ skipBlank cs = cs :=
  ⟨cs.takeWhile Text.isBlank, fun _ member => List.mem_takeWhile_imp member,
    List.takeWhile_append_dropWhile⟩

/-- The cuts of a text are all its splits with a nonempty front part. -/
theorem mem_cuts_iff {cut : List Char × List Char} :
    cut ∈ cuts cs ↔ cut.1 ≠ [] ∧ cut.1 ++ cut.2 = cs := by
  simp only [cuts, List.mem_reverse, List.mem_map, List.mem_range]
  constructor
  · -- A cut inside a line that is not empty keeps at least one character on the left.
    rintro ⟨n, within, rfl⟩
    refine ⟨?_, List.take_append_drop _ _⟩
    simp [List.ne_nil_of_length_pos (Nat.zero_lt_of_lt within)]
  · obtain ⟨before, after⟩ := cut
    rintro ⟨nonempty, rfl⟩
    obtain ⟨first, before, rfl⟩ := List.exists_cons_of_ne_nil nonempty
    have within : before.length < (first :: before ++ after).length := by
      rw [List.length_append, List.length_cons]
      omega
    exact ⟨before.length, within, by simp⟩

/-- An end of a line is read from what ends one, and from nothing else. -/
theorem distance?_eq_some_iff : distance? cs = some digits ↔ Ends cs digits := by
  constructor
  · intro found
    obtain ⟨blank, isBlank, parts⟩ := exists_blank_append_skipBlank cs
    unfold distance? at found
    split at found
    · -- There is nothing but white space.
      rename_i empty
      cases found
      exact .undelayed (skipBlank_eq_nil_iff.mp empty)
    · rename_i rest signed
      obtain ⟨between, betweenBlank, restParts⟩ := exists_blank_append_skipBlank rest
      rw [List.span_eq_takeWhile_dropWhile] at found
      dsimp only at found
      split at found
      · cases found
      · rename_i accepted
        obtain rfl := Option.some.inj found
        rw [Bool.or_eq_true, not_or] at accepted
        have afterBlank : Blank ((skipBlank rest).dropWhile Text.isDigit) := by
          simpa using accepted.2
        -- The digits and the white space behind them make up what follows the sign.
        have whole : cs = blank ++ '@' :: (between ++ ((skipBlank rest).takeWhile Text.isDigit ++
            (skipBlank rest).dropWhile Text.isDigit)) := by
          rw [List.takeWhile_append_dropWhile, restParts, ← signed, parts]
        rw [whole]
        refine .delayed isBlank betweenBlank afterBlank (fun c member => ?_)
          (by simpa using accepted.1)
        exact List.mem_takeWhile_imp member
    · -- A character that is neither white space nor a sign ends the attempt.
      cases found
  · intro ends
    -- The other way round both kinds of ends are read as they are.
    cases ends with
    | undelayed isBlank => exact distance?_blank isBlank
    | delayed beforeBlank betweenBlank afterBlank isDigits nonempty =>
      exact distance?_digits beforeBlank betweenBlank afterBlank isDigits nonempty

/-- A destination that is read is there, with an end behind it. -/
theorem exists_of_destination? {found : String} (isFound : destination? cs = some (found, digits)) :
    ∃ between tail, Blank between ∧ Word found.toList ∧ Ends tail digits ∧
      between ++ (found.toList ++ tail) = cs := by
  obtain ⟨between, betweenBlank, parts⟩ := exists_blank_append_skipBlank cs
  have solid := solid_word (skipBlank cs)
  have joined := word_append_rest (skipBlank cs)
  rw [destination?] at isFound
  generalize word (skipBlank cs) = first at isFound solid joined
  obtain ⟨name, rest⟩ := first
  dsimp only at isFound solid joined
  -- The destination is the first part of a cut of the word.
  obtain ⟨⟨before, after⟩, isCut, fits⟩ := List.exists_of_findSome?_eq_some isFound
  obtain ⟨nonempty, rfl⟩ := mem_cuts_iff.mp isCut
  obtain ⟨taken, ends, same⟩ := Option.map_eq_some_iff.mp fits
  obtain ⟨rfl, rfl⟩ := Prod.mk.inj same
  -- What is cut off is followed by the rest of the line.
  rw [String.toList_ofList]
  refine ⟨between, after ++ rest, betweenBlank, ⟨nonempty, fun c member => ?_⟩,
    distance?_eq_some_iff.mp ends, ?_⟩
  · exact solid c (List.mem_append_left after member)
  · rw [← parts, ← joined, List.append_assoc before]

/-- The parts that are read from a line are a split of it. -/
theorem splits_of_shorthand? {s first second : String}
    (isFound : shorthand? s = some (first, second, digits)) :
    Splits s.toList first.toList second.toList digits := by
  obtain ⟨left, leftBlank, parts⟩ := exists_blank_append_skipBlank s.toList
  have solid := solid_word (skipBlank s.toList)
  have joined := word_append_rest (skipBlank s.toList)
  rw [shorthand?] at isFound
  generalize word (skipBlank s.toList) = start at isFound solid joined
  obtain ⟨name, rest⟩ := start
  dsimp only at isFound solid joined
  -- The source is the first part of a cut of the word, with an arrow behind it.
  obtain ⟨⟨before, after⟩, isCut, fits⟩ := List.exists_of_findSome?_eq_some isFound
  obtain ⟨nonempty, rfl⟩ := mem_cuts_iff.mp isCut
  obtain ⟨right, rightBlank, rightParts⟩ := exists_blank_append_skipBlank (after ++ rest)
  dsimp only at fits
  split at fits
  · -- The arrow is there, and the destination behind it is known by what has been shown of it.
    rename_i behind isArrow
    obtain ⟨taken, isDestination, same⟩ := Option.map_eq_some_iff.mp fits
    obtain ⟨rfl, rfl⟩ := Prod.mk.inj same
    obtain ⟨between, tail, betweenBlank, isWord, ends, behindParts⟩ :=
      exists_of_destination? isDestination
    have whole : s.toList = left ++ (before ++ (right ++ '-' :: '>' ::
        (between ++ (second.toList ++ tail)))) := by
      rw [behindParts, ← isArrow, rightParts, ← parts, ← joined, List.append_assoc before]
    rw [whole, String.toList_ofList]
    exact .parts leftBlank ⟨nonempty, fun c member => solid c (List.mem_append_left after member)⟩
      rightBlank betweenBlank isWord ends
  · cases fits

/-- Of all splits the longest is read. -/
theorem Longest.shorthand? (longest : Longest line source destination digits) :
    shorthand? (String.ofList line) =
      some (String.ofList source, String.ofList destination, digits) := by
  obtain ⟨splits, sourceLe, destinationLe⟩ := longest
  cases splits with
  | @parts left _ right between _ tail _ leftBlank isSource rightBlank betweenBlank isDestination
      ends =>
    have isRead : destination? (between ++ (destination ++ tail)) =
        some (String.ofList destination, digits) := by
      refine destination?_eq betweenBlank isDestination.nonempty isDestination.solid
        (distance?_eq_some_iff.mpr ends) fun more rest notEmpty solid parts => ?_
      -- A longer destination would make a split with the same source.
      by_contra found
      obtain ⟨others, othersFound⟩ := Option.ne_none_iff_exists'.mp found
      have longer := destinationLe (destination ++ more) others (by
        rw [← parts, ← List.append_assoc destination]
        refine .parts leftBlank isSource rightBlank betweenBlank ⟨by simp [notEmpty], ?_⟩
          (distance?_eq_some_iff.mp othersFound)
        exact List.forall_mem_append.mpr ⟨isDestination.solid, solid⟩)
      rw [List.length_append] at longer
      exact notEmpty (List.length_eq_zero_iff.mp (by omega))
    refine shorthand?_cut leftBlank rightBlank isSource.nonempty isSource.solid isRead
      fun more rest behind notEmpty solid parts isArrow => ?_
    -- A longer source would make a split as well.
    by_contra found
    obtain ⟨⟨second, others⟩, othersFound⟩ := Option.ne_none_iff_exists'.mp found
    obtain ⟨otherBetween, otherTail, otherBlank, secondWord, otherEnds, joined⟩ :=
      exists_of_destination? othersFound
    obtain ⟨otherRight, otherRightBlank, rightParts⟩ := exists_blank_append_skipBlank rest
    have longer := sourceLe (source ++ more) second.toList others (by
      rw [← parts, ← rightParts, isArrow, ← joined, ← List.append_assoc source]
      refine .parts leftBlank ⟨by simp [notEmpty], ?_⟩ otherRightBlank otherBlank secondWord
        otherEnds
      exact List.forall_mem_append.mpr ⟨isSource.solid, solid⟩)
    rw [List.length_append] at longer
    exact notEmpty (List.length_eq_zero_iff.mp (by omega))

section Lines

variable {s : String}

/-- A line is read by its longest split. -/
theorem Longest.readShorthand (longest : Longest s.toList source destination digits) :
    readShorthand s =
      if Text.digitLimit < digits.length then .error (.longNumber digits.length)
      else .ok ⟨String.ofList source, String.ofList destination, Text.digitsValue digits⟩ := by
  have parts := longest.shorthand?
  rw [String.ofList_toList] at parts
  exact readShorthand_of_shorthand? parts

/-- A line is refused for its form if it cannot be split; any other one has a longest split. -/
theorem readShorthand_cases (s : String) :
    ((¬∃ source destination digits, Splits s.toList source destination digits) ∧
        readShorthand s = .error (.badShorthand s)) ∨
      ∃ source destination digits, Longest s.toList source destination digits := by
  by_cases some_ : ∃ source destination digits, Splits s.toList source destination digits
  · obtain ⟨source, destination, digits, splits⟩ := some_
    exact .inr splits.exists_longest
  · -- Parts that were found would be a split.
    have notFound : shorthand? s = none := by
      rw [Option.eq_none_iff_forall_not_mem]
      rintro ⟨source, destination, digits⟩ found
      exact some_ ⟨_, _, _, splits_of_shorthand? found⟩
    refine .inl ⟨some_, ?_⟩
    rw [readShorthand, notFound]

end Lines

/-- A line is read as a dependence exactly if it can be split and, in its longest split, the
distance has no more digits than a number may have; the dependence then has the parts of that split.
A line that cannot be split is refused for that, and any other one for the digits of its distance.
-/
theorem readShorthand_is_exact (s : String) :
    ((∃ source destination digits, Longest s.toList source destination digits) ↔
        ∃ source destination digits, Splits s.toList source destination digits) ∧
      (∀ dependence, readShorthand s = .ok dependence ↔
        ∃ digits, Longest s.toList dependence.source.toList dependence.destination.toList digits ∧
          digits.length ≤ Text.digitLimit ∧ dependence.distance = Text.digitsValue digits) ∧
      (readShorthand s = .error (.badShorthand s) ↔
        ¬∃ source destination digits, Splits s.toList source destination digits) ∧
      ∀ count, readShorthand s = .error (.longNumber count) ↔
        ∃ source destination digits, Longest s.toList source destination digits ∧
          digits.length = count ∧ Text.digitLimit < count := by
  refine ⟨⟨?_, ?_⟩, fun dependence => ⟨fun isRead => ?_, ?_⟩, ⟨fun isBad => ?_, fun none_ => ?_⟩,
    fun count => ⟨fun isLong => ?_, ?_⟩⟩
  · rintro ⟨source, destination, digits, longest⟩
    exact ⟨source, destination, digits, longest.splits⟩
  · rintro ⟨source, destination, digits, splits⟩
    exact splits.exists_longest
  · -- What is read has the parts of the longest split.
    rcases readShorthand_cases s with ⟨-, isBad⟩ | ⟨source, destination, digits, longest⟩
    · rw [isBad] at isRead
      cases isRead
    · rw [longest.readShorthand] at isRead
      split at isRead
      · cases isRead
      · rename_i short
        cases isRead
        exact ⟨digits, by simpa using longest, not_lt.mp short, rfl⟩
  · -- The longest split is the one that is read, and its digits are not too many.
    rintro ⟨digits, longest, short, isValue⟩
    rw [longest.readShorthand, if_neg (not_lt.mpr short), String.ofList_toList,
      String.ofList_toList, ← isValue]
  · -- A line is found to be bad just where no split is found.
    rcases readShorthand_cases s with ⟨none_, -⟩ | ⟨source, destination, digits, longest⟩
    · exact none_
    · rw [longest.readShorthand] at isBad
      split at isBad <;> cases isBad
  · rcases readShorthand_cases s with ⟨-, isBad⟩ | ⟨source, destination, digits, longest⟩
    · exact isBad
    · exact absurd ⟨_, _, _, longest.splits⟩ none_
  · rcases readShorthand_cases s with ⟨-, isBad⟩ | ⟨source, destination, digits, longest⟩
    · rw [isBad] at isLong
      cases isLong
    · -- Of a line that can be split only the digits can be refused.
      rw [longest.readShorthand] at isLong
      split at isLong
      · rename_i long
        cases isLong
        exact ⟨source, destination, digits, longest, rfl, long⟩
      · cases isLong
  · rintro ⟨source, destination, digits, longest, rfl, long⟩
    rw [longest.readShorthand, if_pos long]

/-- The first arrow belongs to the source, since there is another one behind it, and the sign to the
destination. -/
example : readShorthand "a->->b@2" = .ok ⟨"a->", "b@2", 0⟩ := by decide

/-- A distance is refused for its length, whatever number it is. -/
theorem readShorthand_overlong :
    Splits ("a -> b @ " ++ String.ofList (List.replicate 4301 '0')).toList ['a'] ['b']
        (List.replicate 4301 '0') ∧
      readShorthand ("a -> b @ " ++ String.ofList (List.replicate 4301 '0')) =
        .error (.longNumber 4301) := by
  -- Only these two facts about the digits matter; with the list itself the terms would be huge.
  have isDigits : Digits (List.replicate 4301 '0') := fun c member => by
    rw [List.eq_of_mem_replicate member]
    decide
  have isLong : (List.replicate 4301 '0').length = 4301 := List.length_replicate
  generalize List.replicate 4301 '0' = digits at isDigits isLong
  have nonempty : digits ≠ [] := List.ne_nil_of_length_pos (by omega)
  have line : ("a -> b @ " ++ String.ofList digits).toList = [] ++ (['a'] ++ ([' '] ++ '-' :: '>' ::
      ([' '] ++ (['b'] ++ ([' '] ++ '@' :: ([' '] ++ (digits ++ []))))))) := by
    simp
  refine ⟨?_, ?_⟩
  · rw [line]
    exact .parts (by decide) ⟨by decide, by decide⟩ (by decide) (by decide)
      ⟨by decide, by decide⟩ (.delayed (by decide) (by decide) (by decide) isDigits nonempty)
  · -- The greedy reading finds the same parts, and its length is what the reader refuses.
    have blank : Blank [' '] := by decide
    have empty : Blank [] := by decide
    have parts := shorthand?_delayed empty blank blank blank blank empty
      (show Nameable ['a'] by decide) (show Nameable ['b'] by decide) isDigits nonempty (by decide)
    rw [← line, String.ofList_toList] at parts
    rw [readShorthand_of_shorthand? parts, if_pos (by rw [isLong]; decide), isLong]

end CycleSchedule.Document
