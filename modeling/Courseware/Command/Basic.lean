import Courseware.Command.Family
import Courseware.Logo.Sentence

/-!
Commands, and how they are read. Reading never fails: a text that is no command stands for
the failure that it leads to when it is executed.
-/

namespace Courseware

open Text

inductive Command where
  | pilot (c : Pilot.Command)
  | basic (s : Basic.Statement)
  | logo (line : List Logo.Sentence)
  /-- Does nothing. -/
  | skip
  /-- Jumps to a line number. -/
  | jumpTo (number : Text)
  /-- A command inside another, which is counted on its own. -/
  | nested (c : Command)
  | ifThen (condition : Text) (yes no : Command)
  /-- The condition may mention variables as Logo does; the block is missing if its bracket
  is never closed. -/
  | ifBlock (condition : Text) (body : Option (List Logo.Sentence))
  | unknown (t : Text)

namespace Command

/-- The commands of a block. If it cannot be cut into words, that is found out by running it. -/
def readBlock (p : Program) (t : Text) : List Logo.Sentence :=
  match Logo.splitWords t with
  | .ok ws => Logo.sentences p ws
  | .error m => [.stray m]

/-- Reads `CONDITION [ BLOCK ]`. -/
def readIfBlock (p : Program) (t : Text) : Command :=
  match cut? '[' t with
  | none => .basic (.faulty (.misuse .noThen))
  | some (condition, rest) =>
    .ifBlock condition ((Logo.closeBlock? 0 rest).map fun (b, _) => readBlock p b)

/-- The condition and the branches of `CONDITION THEN A ELSE B`; the last may be missing. -/
def cutIf? (t : Text) : Option (Text × Text × Text) :=
  match Basic.atKeyword? "THEN".toList t with
  | none => none
  | some (condition, rest) =>
    match Basic.atKeyword? "ELSE".toList rest with
    | none => some (condition, trim rest, [])
    | some (a, b) => some (condition, trim a, trim b)

/-- The statement of BASIC that begins with a keyword, and what follows the keyword. -/
def splitBasic (t : Text) : Option Basic.Keyword × Text :=
  match Basic.Keyword.ofName? (upper (splitName t).1) with
  | some k => (some k, trim (splitName t).2)
  | none => (none, t)

theorem length_trim_le (t : Text) : (trim t).length ≤ t.length := by
  have h₁ := length_dropWhile_le isBlank t
  have h₂ := length_dropWhile_le isBlank (trimStart t).reverse
  unfold trim trimEnd
  simp only [List.length_reverse] at h₂ ⊢
  exact Nat.le_trans h₂ h₁

theorem length_of_cutIf? {t c a b : Text} (h : cutIf? t = some (c, a, b)) :
    a.length ≤ t.length ∧ b.length ≤ t.length := by
  unfold cutIf? at h
  split at h
  · cases h
  · next c' r hc =>
    have hr := Basic.length_of_cutKeyword? hc
    split at h
    · cases h
      have := length_trim_le r
      refine ⟨by omega, by simp⟩
    · next a' b' hb =>
      cases h
      have := Basic.length_of_cutKeyword? hb
      have := length_trim_le a'
      have := length_trim_le b'
      refine ⟨by omega, by omega⟩

theorem length_splitName_of_keyword {t : Text} {k : Basic.Keyword}
    (h : Basic.Keyword.ofName? (upper (splitName t).1) = some k) :
    (splitName t).2.length < t.length := by
  -- no keyword is empty, so the name takes a character
  cases t with
  | nil =>
    have : Basic.Keyword.ofName? (upper (splitName []).1) = none := by decide
    rw [this] at h
    cases h
  | cons c r =>
    by_cases hc : isNameChar c = true
    · have := length_splitName (r := r) hc
      rw [List.length_cons]
      omega
    · exfalso
      have hs : (splitName (c :: r)).1 = [] ∨ (splitName (c :: r)).1 = ['$'] := by
        unfold splitName
        rw [List.takeWhile_cons, if_neg hc]
        split
        · exact .inr rfl
        · exact .inl rfl
      rcases hs with hs | hs <;> rw [hs] at h <;> revert h <;> decide +revert

/-- Reads a command. What follows `THEN` and `ELSE` is a line number or a command again. -/
def read (p : Program) (text : Text) : Command :=
  let t := trim text
  match Family.classify t with
  | .pilot =>
    match Pilot.split? t with
    | some (code, operand) => .pilot (.ofCode t code (trim operand))
    | none => .unknown t
  | .basic =>
    match _h : splitBasic t with
    | (some .ifThen, rest) =>
      match _hc : cutIf? rest with
      | some (condition, a, b) =>
        .ifThen condition
          (if a = [] then .skip
            else if a.all Number.isDigit then .jumpTo a
            else .nested (read p a))
          (if b = [] then .skip
            else if b.all Number.isDigit then .jumpTo b
            else .nested (read p b))
      | none => readIfBlock p rest
    | (some k, rest) => .basic (.ofKeyword k rest)
    | (none, _) => .basic (.readAssign t)
  | .logo => .logo (readBlock p t)
  | .unknown => if (p.procedure? (firstWord t)).isSome then .logo (readBlock p t) else .unknown t
termination_by text.length
decreasing_by
  all_goals
    have h₁ := length_of_cutIf? _hc
    have h₂ : t.length ≤ text.length := length_trim_le text
    have h₃ : rest.length < t.length := by
      unfold splitBasic at _h
      split at _h
      · next hk =>
        have := length_splitName_of_keyword hk
        have := length_trim_le (splitName t).2
        cases _h
        omega
      · cases _h
    omega

end Command

end Courseware
