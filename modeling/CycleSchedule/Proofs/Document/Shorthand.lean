import CycleSchedule.Document.Shorthand
import Mathlib.Data.List.TakeDrop
import Mathlib.Data.List.TakeWhile

/-! White space in the one-line form of a dependence: between the names and the arrow it does not
count, but it has to stand on one side of the sign in front of a distance. -/

namespace CycleSchedule.Document

variable {cs before after tail blank name digits : List Char}

/-- A row of white space. -/
def Blank (cs : List Char) : Prop := ∀ c ∈ cs, Text.isBlank c = true

/-- A row without white space. -/
def Solid (cs : List Char) : Prop := ∀ c ∈ cs, Text.isBlank c = false

/-- A row of digits. -/
def Digits (cs : List Char) : Prop := ∀ c ∈ cs, Text.isDigit c = true

/-- A row in which no arrow can be found. -/
def ArrowFree (cs : List Char) : Prop := ¬['-', '>'] <:+: cs

/-- What can name an operation in one line. -/
structure Nameable (name : List Char) : Prop where
  nonempty : name ≠ []
  solid : Solid name
  arrowFree : ArrowFree name

-- All characters of the row are looked at, not all that there are.
instance : Decidable (Blank cs) := List.decidableBAll (fun c => Text.isBlank c = true) cs

instance : Decidable (Solid cs) := List.decidableBAll (fun c => Text.isBlank c = false) cs

instance : Decidable (Digits cs) := List.decidableBAll (fun c => Text.isDigit c = true) cs

instance : Decidable (ArrowFree cs) := inferInstanceAs (Decidable ¬_)

instance : Decidable (Nameable cs) :=
  decidable_of_iff (cs ≠ [] ∧ Solid cs ∧ ArrowFree cs)
    ⟨fun ⟨nonempty, solid, arrowFree⟩ => ⟨nonempty, solid, arrowFree⟩,
      fun name => ⟨name.nonempty, name.solid, name.arrowFree⟩⟩

/-- A digit of any script is no white space. -/
theorem isBlank_of_isDigit {c : Char} (digit : Text.isDigit c = true) :
    Text.isBlank c = false := by
  -- The ten code points from a zero on lie outside of every range of white space.
  have apart : ∀ first ∈ Text.digitZeros, ∀ range ∈ Text.blankRanges,
      first + 10 ≤ range.1 ∨ range.2 < first := by decide +kernel
  simp only [Text.isDigit, Text.digitValue?, Option.isSome_map, List.find?_isSome,
    Bool.and_eq_true, decide_eq_true_eq] at digit
  obtain ⟨first, isZero, low, high⟩ := digit
  simp only [Text.isBlank, Text.inRanges, List.any_eq_false, Bool.and_eq_true, decide_eq_true_eq]
  intro range isRange inside
  rcases apart first isZero range isRange with beyond | before
  · omega
  · omega

/-- Nothing without white space begins where white space begins. -/
theorem Solid.eq_nil {c : Char} {more rest : List Char} (solid : Solid more)
    (isBlank : Text.isBlank c = true) (parts : more ++ rest = c :: cs) : more = [] := by
  cases more with
  | nil => rfl
  | cons first more =>
    -- A solid text cannot begin with the blank.
    obtain ⟨rfl, _⟩ := List.cons.inj parts
    simpa [isBlank] using solid first (by simp)

/-- Without the second half of an arrow there is none. -/
theorem arrowFree_of_not_mem (absent : '>' ∉ cs) : ArrowFree cs := fun arrow =>
  absent (arrow.subset (by simp))

/-- An arrow does not begin where its first half is missing. -/
theorem ArrowFree.cons {c : Char} (arrowFree : ArrowFree cs) (different : c ≠ '-') :
    ArrowFree (c :: cs) := by
  intro arrow
  -- An arrow at the front would begin with the other character.
  rcases List.infix_cons_iff.mp arrow with begins | later
  · exact different (List.cons_prefix_cons.mp begins).1.symm
  · exact arrowFree later

/-- White space in front makes no arrow. -/
theorem ArrowFree.blank_append (arrowFree : ArrowFree cs) (isBlank : Blank blank) :
    ArrowFree (blank ++ cs) := by
  induction blank with
  | nil => exact arrowFree
  | cons c blank ih =>
    -- A blank prefix holds no arrow and cannot begin one, as `-` is no blank.
    refine (ih fun other member => isBlank other (List.mem_cons_of_mem _ member)).cons ?_
    rintro rfl
    exact absurd (isBlank '-' (by simp)) (by decide)

/-- Nothing without the second half of an arrow makes one with what is in front of it. -/
theorem ArrowFree.append (arrowFree : ArrowFree cs) (absent : '>' ∉ tail) :
    ArrowFree (cs ++ tail) := by
  -- By induction on what is in front: an arrow begins at its first character or later.
  induction cs with
  | nil => exact arrowFree_of_not_mem absent
  | cons c cs ih =>
    intro arrow
    rcases List.infix_cons_iff.mp arrow with begins | later
    · cases cs with
      | nil =>
        -- The second half would be the first character of what follows.
        obtain ⟨_, second⟩ := List.cons_prefix_cons.mp begins
        exact absent (second.subset (by simp))
      | cons second rest =>
        obtain ⟨rfl, half⟩ := List.cons_prefix_cons.mp begins
        obtain ⟨rfl, _⟩ := List.cons_prefix_cons.mp half
        exact arrowFree (List.prefix_append ['-', '>'] rest).isInfix
    · exact ih (fun inside => arrowFree (List.infix_cons inside)) later

/-- White space in front is skipped as a whole. -/
theorem skipBlank_append (isBlank : Blank blank) : skipBlank (blank ++ cs) = skipBlank cs :=
  List.dropWhile_append_of_pos isBlank

/-- Nothing is left of a text without its leading blanks just when all of it is blank. -/
@[simp] theorem skipBlank_eq_nil_iff : skipBlank cs = [] ↔ Blank cs := List.dropWhile_eq_nil_iff

/-- Nothing is skipped in front of something else. -/
theorem skipBlank_cons {c : Char} (solid : Text.isBlank c = false) :
    skipBlank (c :: cs) = c :: cs := by
  simp [skipBlank, solid]

/-- No blank is skipped in front of a solid text. -/
theorem skipBlank_solid (solid : Solid before) (nonempty : before ≠ []) :
    skipBlank (before ++ after) = before ++ after := by
  cases before with
  | nil => exact absurd rfl nonempty
  | cons c rest => exact skipBlank_cons (solid c (by simp))

/-- What is left after white space is the end of what was there. -/
theorem skipBlank_isSuffix (cs : List Char) : skipBlank cs <:+ cs := List.dropWhile_suffix _

/-- Where no arrow can be found, none is found after white space either. -/
theorem ArrowFree.skipBlank_ne (arrowFree : ArrowFree cs) (rest : List Char) :
    skipBlank cs ≠ '-' :: '>' :: rest := by
  intro found
  -- What is left of a text after its white space is a part of it.
  refine arrowFree (List.IsInfix.trans ?_ (skipBlank_isSuffix cs).isInfix)
  rw [found]
  exact (List.prefix_append ['-', '>'] rest).isInfix

/-- A word and what follows it make up the text. -/
theorem word_append_rest (cs : List Char) : (word cs).1 ++ (word cs).2 = cs := by
  simp [word, List.span_eq_takeWhile_dropWhile]

/-- A word holds no blank. -/
theorem solid_word (cs : List Char) : Solid (word cs).1 := by
  intro c member
  rw [word, List.span_eq_takeWhile_dropWhile] at member
  simpa using List.mem_takeWhile_imp member

/-- A word that begins with what has no white space in it goes on behind that. -/
theorem word_append (solid : Solid before) :
    word (before ++ after) = (before ++ (word after).1, (word after).2) := by
  have all : ∀ c ∈ before, (!Text.isBlank c) = true := by simpa [Solid] using solid
  simp only [word, List.span_eq_takeWhile_dropWhile, List.takeWhile_append_of_pos all,
    List.dropWhile_append_of_pos all]

/-- Of the cuts that fit, the one with the longest first part is taken. -/
theorem findSome?_cuts {α : Type} {fit : List Char × List Char → Option α} {a : α}
    (nonempty : before ≠ []) (fits : fit (before, after) = some a)
    (longer : ∀ more rest, more ≠ [] → more ++ rest = after →
      fit (before ++ more, rest) = none) :
    (cuts (before ++ after)).findSome? fit = some a := by
  obtain ⟨shorter, isLength⟩ : ∃ n, before.length = n + 1 :=
    Nat.exists_eq_succ_of_ne_zero (by simpa using nonempty)
  -- The cuts come from the longest to the shortest, so those after this one do not count.
  rw [cuts, List.length_append, List.range_add, isLength, List.range_succ]
  simp only [List.map_append, List.reverse_append, List.findSome?_append, List.map_cons,
    List.map_nil, List.reverse_singleton, List.findSome?_cons, List.findSome?_nil]
  have none_ : (((List.range after.length).map (shorter + 1 + ·)).map fun n =>
      ((before ++ after).take (n + 1), (before ++ after).drop (n + 1))).reverse.findSome? fit =
        none := by
    simp only [List.findSome?_eq_none_iff, List.mem_reverse, List.mem_map, List.mem_range]
    rintro _ ⟨_, ⟨step, within, rfl⟩, rfl⟩
    -- A longer first part takes in some of what follows.
    rw [← isLength, Nat.add_assoc, List.take_length_add_append, List.drop_length_add_append]
    refine longer _ _ ?_ (List.take_append_drop _ _)
    simp [List.ne_nil_of_length_pos (Nat.zero_lt_of_lt within)]
  have here : ((before ++ after).take (shorter + 1), (before ++ after).drop (shorter + 1)) =
      (before, after) := by
    rw [← isLength, List.take_left, List.drop_left]
  rw [none_, here, fits]
  rfl

/-- What a line may end with after its destination: nothing but white space, or a distance. -/
theorem distance?_blank (isBlank : Blank blank) : distance? blank = some [] := by
  rw [distance?, skipBlank_eq_nil_iff.mpr isBlank]

/-- A sign and digits make a distance, with white space anywhere around them. -/
theorem distance?_digits {before between after : List Char} (beforeBlank : Blank before)
    (betweenBlank : Blank between) (afterBlank : Blank after) (isDigits : Digits digits)
    (nonempty : digits ≠ []) :
    distance? (before ++ '@' :: (between ++ (digits ++ after))) = some digits := by
  -- No digit is white space.
  have solid : Solid digits := fun c member => isBlank_of_isDigit (isDigits c member)
  -- The digits end where the white space begins.
  have ends : (digits ++ after).span Text.isDigit = (digits, after) := by
    rw [List.span_eq_takeWhile_dropWhile, List.takeWhile_append_of_pos isDigits,
      List.dropWhile_append_of_pos isDigits]
    cases after with
    | nil => simp
    | cons c rest =>
      have noDigit : Text.isDigit c = false := by
        by_contra digit
        have := isBlank_of_isDigit (Bool.not_eq_false _ ▸ digit)
        simp [afterBlank c (by simp)] at this
      simp [noDigit]
  rw [distance?, skipBlank_append beforeBlank, skipBlank_cons (by decide)]
  simp only [skipBlank_append betweenBlank, skipBlank_solid solid nonempty, ends,
    skipBlank_eq_nil_iff.mpr afterBlank]
  simp [nonempty]

/-- Digits without a sign are no distance. -/
theorem distance?_unsigned (isBlank : Blank blank) (isDigits : Digits digits)
    (nonempty : digits ≠ []) : distance? (blank ++ (digits ++ after)) = none := by
  obtain ⟨first, rest, rfl⟩ := List.exists_cons_of_ne_nil nonempty
  have digit : Text.isDigit first = true := isDigits first (by simp)
  -- A digit is no `@`, so without the sign there is no distance to read.
  have different : first ≠ '@' := by
    rintro rfl
    exact absurd digit (by decide)
  rw [distance?, skipBlank_append isBlank, List.cons_append,
    skipBlank_cons (isBlank_of_isDigit digit)]
  simp [different]

/-- A destination is read up to what ends the line, if that does not end it any later. -/
theorem destination?_eq (isBlank : Blank blank) (nonempty : name ≠ []) (solid : Solid name)
    (ends : distance? tail = some digits)
    (notLater : ∀ more rest, more ≠ [] → Solid more → more ++ rest = tail →
      distance? rest = none) :
    destination? (blank ++ (name ++ tail)) = some (String.ofList name, digits) := by
  rw [destination?, skipBlank_append isBlank, skipBlank_solid solid nonempty, word_append solid]
  refine findSome?_cuts nonempty ?_ fun more rest notEmpty parts => ?_
  · simp only [word_append_rest, ends, Option.map_some]
  · -- A longer destination would have to end later.
    have within : Solid more := fun c member =>
      solid_word tail c (parts ▸ List.mem_append_left rest member)
    have later := notLater more (rest ++ (word tail).2) notEmpty within (by
      rw [← List.append_assoc, parts, word_append_rest])
    simp only [later, Option.map_none]

/-- Behind something that takes in the first half of the only arrow, there is no arrow. -/
theorem ArrowFree.behind {right more rest : List Char} (arrowFree : ArrowFree tail)
    (isBlank : Blank right) (notEmpty : more ≠ []) (solid : Solid more)
    (parts : more ++ rest = right ++ '-' :: '>' :: tail) : ArrowFree rest := by
  cases right with
  | cons c right => exact absurd (solid.eq_nil (isBlank c (by simp)) parts) notEmpty
  | nil =>
    cases more with
    | nil => exact absurd rfl notEmpty
    | cons first more =>
      -- The rest is an end of the second half of the arrow and of what follows.
      obtain ⟨_, parts⟩ := List.cons.inj parts
      exact fun arrow => arrowFree.cons (by decide)
        (arrow.trans (List.IsSuffix.isInfix ⟨more, parts⟩))

/-- A line is cut at an arrow, with white space anywhere around the source, if no arrow further on
leaves a destination behind it. -/
theorem shorthand?_cut {left right : List Char} (leftBlank : Blank left) (rightBlank : Blank right)
    (nonempty : name ≠ []) (solid : Solid name) {found : String × List Char}
    (destination : destination? tail = some found)
    (notLater : ∀ more rest behind, more ≠ [] → Solid more →
      more ++ rest = right ++ '-' :: '>' :: tail → skipBlank rest = '-' :: '>' :: behind →
        destination? behind = none) :
    shorthand? (String.ofList (left ++ (name ++ (right ++ '-' :: '>' :: tail)))) =
      some (String.ofList name, found) := by
  rw [shorthand?, String.toList_ofList, skipBlank_append leftBlank, skipBlank_solid solid nonempty,
    word_append solid]
  -- The name is the longest cut that is followed by the arrow.
  refine findSome?_cuts nonempty ?_ fun more rest notEmpty parts => ?_
  · simp only [word_append_rest, skipBlank_append rightBlank,
      skipBlank_cons (show Text.isBlank '-' = false by decide), destination, Option.map_some]
  · -- A longer source is followed by an arrow further on, or by none.
    have within : Solid more := fun c member =>
      solid_word _ c (parts ▸ List.mem_append_left rest member)
    have whole : more ++ (rest ++ (word (right ++ '-' :: '>' :: tail)).2) =
        right ++ '-' :: '>' :: tail := by
      rw [← List.append_assoc, parts, word_append_rest]
    dsimp only
    split
    · rename_i behind isArrow
      rw [notLater more _ behind notEmpty within whole isArrow, Option.map_none]
    · rfl

/-- A line is cut at its only arrow. -/
theorem shorthand?_eq {left right : List Char} (leftBlank : Blank left) (rightBlank : Blank right)
    (source : Nameable name) (arrowFree : ArrowFree tail) {found : String × List Char}
    (destination : destination? tail = some found) :
    shorthand? (String.ofList (left ++ (name ++ (right ++ '-' :: '>' :: tail)))) =
      some (String.ofList name, found) := by
  refine shorthand?_cut leftBlank rightBlank source.nonempty source.solid destination
    fun more rest behind notEmpty within whole isArrow => ?_
  -- A longer source takes in the first half of the arrow, and no other arrow is behind it.
  exact absurd isArrow ((arrowFree.behind rightBlank notEmpty within whole).skipBlank_ne behind)

section Lines

variable {left right between source destination : List Char}

/-- A line without a distance is read as one, whatever white space there is. -/
theorem shorthand?_undelayed (leftBlank : Blank left) (rightBlank : Blank right)
    (betweenBlank : Blank between) (afterBlank : Blank after) (isSource : Nameable source)
    (isDestination : Nameable destination) :
    shorthand? (String.ofList (left ++ (source ++ (right ++ '-' :: '>' ::
      (between ++ (destination ++ after)))))) =
        some (String.ofList source, String.ofList destination, []) := by
  have absent : '>' ∉ after := fun member =>
    absurd (afterBlank '>' member) (by decide)
  refine shorthand?_eq leftBlank rightBlank isSource
    ((isDestination.arrowFree.append absent).blank_append betweenBlank) ?_
  refine destination?_eq betweenBlank isDestination.nonempty isDestination.solid
    (distance?_blank afterBlank) fun more rest notEmpty solid parts => ?_
  -- The destination cannot go on in white space.
  cases after with
  | nil => exact absurd (List.append_eq_nil_iff.mp parts).1 notEmpty
  | cons c after => exact absurd (solid.eq_nil (afterBlank c (by simp)) parts) notEmpty

/-- A line with a distance is read as one where white space sets its sign apart. -/
theorem shorthand?_delayed {before behind : List Char} (leftBlank : Blank left)
    (rightBlank : Blank right) (betweenBlank : Blank between) (beforeBlank : Blank before)
    (behindBlank : Blank behind) (afterBlank : Blank after) (isSource : Nameable source)
    (isDestination : Nameable destination) (isDigits : Digits digits) (nonempty : digits ≠ [])
    (apart : before ++ behind ≠ []) :
    shorthand? (String.ofList (left ++ (source ++ (right ++ '-' :: '>' ::
      (between ++ (destination ++ (before ++ '@' :: (behind ++ (digits ++ after))))))))) =
        some (String.ofList source, String.ofList destination, digits) := by
  have absent : '>' ∉ before ++ '@' :: (behind ++ (digits ++ after)) := by
    simp only [List.mem_append, List.mem_cons, not_or]
    exact ⟨fun member => absurd (beforeBlank '>' member) (by decide), by decide,
      fun member => absurd (behindBlank '>' member) (by decide),
      fun member => absurd (isDigits '>' member) (by decide),
      fun member => absurd (afterBlank '>' member) (by decide)⟩
  refine shorthand?_eq leftBlank rightBlank isSource
    ((isDestination.arrowFree.append absent).blank_append betweenBlank) ?_
  refine destination?_eq betweenBlank isDestination.nonempty isDestination.solid
    (distance?_digits beforeBlank behindBlank afterBlank isDigits nonempty)
    fun more rest notEmpty solid parts => ?_
  cases before with
  | cons c before =>
    -- The destination cannot go on in white space.
    exact absurd (solid.eq_nil (beforeBlank c (by simp)) parts) notEmpty
  | nil =>
    -- It can take in the sign and nothing more, but then digits without a sign are left.
    cases more with
    | nil => exact absurd rfl notEmpty
    | cons first more =>
      obtain ⟨_, parts⟩ := List.cons.inj parts
      obtain ⟨c, space, rfl⟩ := List.exists_cons_of_ne_nil apart
      have alone : more = [] := Solid.eq_nil
        (fun other member => solid other (List.mem_cons_of_mem _ member))
        (behindBlank c (by simp)) parts
      obtain rfl : rest = c :: space ++ (digits ++ after) := by simpa [alone] using parts
      exact distance?_unsigned behindBlank isDigits nonempty

/-- With its sign a distance can be part of a name. -/
theorem Nameable.withDistance (isDestination : Nameable destination) (isDigits : Digits digits) :
    Nameable (destination ++ '@' :: digits) where
  nonempty := by simp
  solid := by
    simp only [Solid, List.forall_mem_append, List.forall_mem_cons]
    exact ⟨isDestination.solid, by decide, fun c member =>
      isBlank_of_isDigit (isDigits c member)⟩
  arrowFree := isDestination.arrowFree.append (by
    simp only [List.mem_cons, not_or]
    -- The digits cannot close an arrow, for `>` is no digit.
    exact ⟨by decide, fun member => absurd (isDigits '>' member) (by decide)⟩)

end Lines

section Texts

variable {source destination digits left right between before behind after : String}

/-- A line is the row of its parts. -/
theorem line_eq (rest : String) : left ++ source ++ right ++ "->" ++ between ++ rest =
    String.ofList (left.toList ++ (source.toList ++ (right.toList ++ '-' :: '>' ::
      (between.toList ++ rest.toList)))) := by
  rw [← String.toList_inj]
  simp

/-- The digits of a line are read as its distance, which is zero without any, unless there are too
many of them. -/
theorem readShorthand_of_shorthand? {s : String} {digits : List Char}
    (parts : shorthand? s = some (source, destination, digits)) :
    readShorthand s = if Text.digitLimit < digits.length then .error (.longNumber digits.length)
      else .ok ⟨source, destination, Text.digitsValue digits⟩ := by
  rw [readShorthand, parts]

/-- A line without a distance spells a dependence within one iteration. -/
theorem readShorthand_undelayed (isSource : Nameable source.toList)
    (isDestination : Nameable destination.toList) (leftBlank : Blank left.toList)
    (rightBlank : Blank right.toList) (betweenBlank : Blank between.toList)
    (afterBlank : Blank after.toList) :
    readShorthand (left ++ source ++ right ++ "->" ++ between ++ destination ++ after) =
      .ok ⟨source, destination, 0⟩ := by
  -- Without a sign the distance is zero.
  have parts := shorthand?_undelayed leftBlank rightBlank betweenBlank afterBlank isSource
    isDestination
  rw [← String.toList_append, ← line_eq, ← String.append_assoc, String.ofList_toList,
    String.ofList_toList] at parts
  exact readShorthand_of_shorthand? parts

/-- A line with a distance set apart spells a dependence over as many iterations. -/
theorem readShorthand_delayed (isSource : Nameable source.toList)
    (isDestination : Nameable destination.toList) (isDigits : Digits digits.toList)
    (nonempty : digits ≠ "") (leftBlank : Blank left.toList) (rightBlank : Blank right.toList)
    (betweenBlank : Blank between.toList) (beforeBlank : Blank before.toList)
    (behindBlank : Blank behind.toList) (afterBlank : Blank after.toList)
    (apart : before ++ behind ≠ "") :
    readShorthand (left ++ source ++ right ++ "->" ++ between ++ destination ++ before ++ "@" ++
      behind ++ digits ++ after) =
        if Text.digitLimit < digits.length then .error (.longNumber digits.length)
        else .ok ⟨source, destination, Text.digitsValue digits.toList⟩ := by
  -- One of the two blanks is there, which keeps the sign out of the name.
  have parts := shorthand?_delayed leftBlank rightBlank betweenBlank beforeBlank behindBlank
    afterBlank isSource isDestination isDigits (by simpa using nonempty) (by
      rwa [← String.toList_append, ne_eq, String.toList_eq_nil_iff])
  have rest : destination.toList ++ (before.toList ++ '@' :: (behind.toList ++
      (digits.toList ++ after.toList))) =
        (destination ++ before ++ "@" ++ behind ++ digits ++ after).toList := by
    simp
  rw [rest, ← line_eq, String.ofList_toList, String.ofList_toList] at parts
  simpa only [String.append_assoc, String.length_toList] using readShorthand_of_shorthand? parts

end Texts

/-- White space between the parts of a line does not count, whatever there is of it, as long as some
of it stands next to the sign of a distance. Without it sign and distance belong to the name of the
destination. -/
theorem readShorthand_spaced {source destination digits left right between before behind
    after : String} (isSource : Nameable source.toList)
    (isDestination : Nameable destination.toList) (isDigits : Digits digits.toList)
    (nonempty : digits ≠ "")
    (spaces : ∀ space ∈ [left, right, between, before, behind, after], Blank space.toList) :
    readShorthand (left ++ source ++ right ++ "->" ++ between ++ destination ++ before) =
        .ok ⟨source, destination, 0⟩ ∧
      readShorthand (left ++ source ++ right ++ "->" ++ between ++ destination ++ before ++ "@" ++
          behind ++ digits ++ after) =
        if before ++ behind = "" then .ok ⟨source, destination ++ "@" ++ digits, 0⟩
        else if Text.digitLimit < digits.length then .error (.longNumber digits.length)
        else .ok ⟨source, destination, Text.digitsValue digits.toList⟩ := by
  simp only [List.forall_mem_cons, List.not_mem_nil, false_implies, implies_true, and_true]
    at spaces
  obtain ⟨leftBlank, rightBlank, betweenBlank, beforeBlank, behindBlank, afterBlank⟩ := spaces
  refine ⟨readShorthand_undelayed isSource isDestination leftBlank rightBlank betweenBlank
    beforeBlank, ?_⟩
  -- What stands around the sign decides how far the destination goes.
  split
  · rename_i joined
    -- Nothing sets the sign apart, so the word of the destination goes on to the last digit.
    obtain ⟨rfl, rfl⟩ := String.append_eq_empty_iff.mp joined
    have withDistance : Nameable (destination ++ "@" ++ digits).toList := by
      simpa using isDestination.withDistance isDigits
    simpa [String.append_assoc] using readShorthand_undelayed isSource withDistance leftBlank
      rightBlank betweenBlank afterBlank
  · -- White space beside the sign sets the distance apart.
    rename_i apart
    exact readShorthand_delayed isSource isDestination isDigits nonempty leftBlank rightBlank
      betweenBlank beforeBlank behindBlank afterBlank apart

/-- Halves of arrows in names, no white space around the arrow, and some of it on one side of the
sign. -/
theorem readShorthand_spaced_halves :
    Nameable "mul-".toList ∧ Nameable ">add".toList ∧ Digits "07".toList ∧ "07" ≠ "" ∧
      (∀ space ∈ ["\t ", "", "", "", " ", "\n"], Blank space.toList) ∧
      readShorthand "\t mul-->>add" = .ok ⟨"mul-", ">add", 0⟩ ∧
      readShorthand "\t mul-->>add@ 07\n" = .ok ⟨"mul-", ">add", 7⟩ := by
  have isSource : Nameable "mul-".toList := by decide
  have isDestination : Nameable ">add".toList := by decide
  have isDigits : Digits "07".toList := by decide
  have spaces : ∀ space ∈ ["\t ", "", "", "", " ", "\n"], Blank space.toList := by decide
  obtain ⟨undelayed, delayed⟩ :=
    readShorthand_spaced isSource isDestination isDigits (by decide) spaces
  exact ⟨isSource, isDestination, isDigits, by decide, spaces, undelayed, delayed⟩

/-- White space on neither side of the sign makes a difference: the distance is lost. -/
theorem readShorthand_joined : readShorthand "a->b @2" = .ok ⟨"a", "b", 2⟩ ∧
    readShorthand "a->b@2" = .ok ⟨"a", "b@2", 0⟩ := by
  decide

end CycleSchedule.Document
