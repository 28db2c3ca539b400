import Courseware.Command.Error
import Courseware.Text.Literal

/-!
The words of a Logo line. Brackets make a block of what they enclose, a semicolon ends a
command, and a quoted text is one word.
-/

namespace Courseware.Logo

open Text

inductive Word where
  | atom (t : Text)
  /-- The contents of a pair of brackets. -/
  | block (t : Text)
  | pause
deriving DecidableEq

/-- The contents of a block and what follows it, where `t` comes after the opening bracket
and after `depth` further ones that are still open. -/
def closeBlock? (depth : Nat) : (t : Text) → Option (Text × Text)
  | [] => none
  | c :: t =>
    if c = ']' ∧ depth = 0 then some ([], t)
    else
      let depth := if c = '[' then depth + 1 else if c = ']' then depth - 1 else depth
      (closeBlock? depth t).map fun (s, r) => (c :: s, r)

/-- What may follow a quoted word. -/
def endsQuoted (t : Text) : Bool :=
  t.head?.all fun c => isBlank c || c == ';' || c == ']'

/-- The quoted word that begins with the quote `q` before `t`, with its quotes, and what
follows it. -/
def quotedWord? (q : Char) (t : Text) : Option (Text × Text) :=
  match cut? q t with
  | some (inner, r) => if endsQuoted r then some (q :: inner ++ [q], r) else none
  | none => none

/-- Puts the word that was being read, if any, in front of others. -/
def flush (current : Text) (ws : List Word) : List Word :=
  if current = [] then ws else .atom current.reverse :: ws

theorem length_of_closeBlock? {depth : Nat} {t s r : Text}
    (h : closeBlock? depth t = some (s, r)) : t.length = s.length + r.length + 1 := by
  induction t generalizing depth s with
  | nil => cases h
  | cons c t ih =>
    rw [closeBlock?] at h
    split at h
    · cases h
      simp
    · obtain ⟨⟨s', r'⟩, hc, he⟩ := Option.map_eq_some_iff.1 h
      cases he
      have := ih hc
      simp only [List.length_cons]
      omega

theorem length_of_quotedWord? {q : Char} {t w r : Text} (h : quotedWord? q t = some (w, r)) :
    w.length + r.length = t.length + 1 := by
  unfold quotedWord? at h
  split at h
  · next inner r' hc =>
    split at h
    · cases h
      have := length_of_cut? hc
      simp only [List.length_append, List.length_cons, List.length_nil]
      omega
    · cases h
  · cases h

/-- The words of a text, where `current` holds the word being read, last character first. -/
def splitFrom (current : Text) (t : Text) : Except Misuse (List Word) :=
  match t with
  | [] => .ok (flush current [])
  | c :: r =>
    if isBlank c then (splitFrom [] r).map (flush current)
    else if c = ';' then (splitFrom [] r).map fun ws => flush current (.pause :: ws)
    else if c = '[' then
      match _h : closeBlock? 0 r with
      | none => .error .unbalancedOpen
      | some (inner, rest) =>
        (splitFrom [] rest).map fun ws => flush current (.block inner :: ws)
    else if c = ']' then .error .unbalancedClose
    else if isQuote c ∧ current = [] then
      match _h : quotedWord? c r with
      | some (w, rest) => (splitFrom [] rest).map (.atom w :: ·)
      | none => splitFrom [c] r
    else splitFrom (c :: current) r
termination_by t.length
decreasing_by
  · simp
  · simp
  · have := length_of_closeBlock? _h
    simp only [List.length_cons]
    omega
  · have hw := length_of_quotedWord? _h
    have hq : 2 ≤ w.length := by
      unfold quotedWord? at _h
      split at _h
      · split at _h
        · cases _h
          simp
        · cases _h
      · cases _h
    simp only [List.length_cons]
    omega
  · simp
  · simp

def splitWords (t : Text) : Except Misuse (List Word) := splitFrom [] t

/-- The number of characters that a word takes at least. -/
def Word.size : Word → Nat
  | atom t => t.length
  | block t => t.length + 2
  | pause => 1

def wordsSize (ws : List Word) : Nat := ws.foldr (fun w n => w.size + n) 0

@[simp] theorem wordsSize_nil : wordsSize [] = 0 := rfl

@[simp] theorem wordsSize_cons (w : Word) (ws : List Word) :
    wordsSize (w :: ws) = w.size + wordsSize ws := rfl

theorem wordsSize_flush (current : Text) (ws : List Word) :
    wordsSize (flush current ws) = current.length + wordsSize ws := by
  unfold flush
  split
  · next h => simp [h]
  · simp [Word.size]

/-- The words of a text are together no longer than the text. -/
theorem wordsSize_splitFrom {current t : Text} {ws : List Word}
    (h : splitFrom current t = .ok ws) : wordsSize ws ≤ current.length + t.length := by
  fun_induction splitFrom current t generalizing ws with
  | case1 current =>
    cases h
    simp [wordsSize_flush]
  | case2 current c r hc ih =>
    cases hr : splitFrom [] r with
    | error e => rw [hr] at h; cases h
    | ok us =>
      rw [hr] at h
      cases h
      have := ih hr
      rw [wordsSize_flush]
      simp only [List.length_cons, List.length_nil] at *
      omega
  | case3 current r hc ih =>
    cases hr : splitFrom [] r with
    | error e => rw [hr] at h; cases h
    | ok us =>
      rw [hr] at h
      cases h
      have := ih hr
      rw [wordsSize_flush]
      simp only [wordsSize_cons, Word.size, List.length_cons, List.length_nil] at *
      omega
  | case4 current r hc hn => cases h
  | case5 current r inner rest hb hc hn ih =>
    cases hr : splitFrom [] rest with
    | error e => rw [hr] at h; cases h
    | ok us =>
      rw [hr] at h
      cases h
      have := ih hr
      have := length_of_closeBlock? hb
      rw [wordsSize_flush]
      simp only [wordsSize_cons, Word.size, List.length_cons, List.length_nil] at *
      omega
  | case6 => cases h
  | case7 current c r _ _ _ _ _ w rest hb ih =>
    cases hr : splitFrom [] rest with
    | error e => rw [hr] at h; cases h
    | ok us =>
      rw [hr] at h
      cases h
      have := ih hr
      have := length_of_quotedWord? hb
      simp only [wordsSize_cons, Word.size, List.length_cons, List.length_nil] at *
      omega
  | case8 current c r _ _ _ _ _ hb ih =>
    have := ih h
    simp only [List.length_cons, List.length_nil] at *
    omega
  | case9 current c r _ _ _ _ _ ih =>
    have := ih h
    simp only [List.length_cons] at *
    omega

theorem wordsSize_splitWords {t : Text} {ws : List Word} (h : splitWords t = .ok ws) :
    wordsSize ws ≤ t.length := by
  simpa using wordsSize_splitFrom h

end Courseware.Logo
