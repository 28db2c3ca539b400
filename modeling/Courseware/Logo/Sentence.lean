import Courseware.Logo.Verb
import Courseware.Logo.Word
import Courseware.Program.Basic

/-!
The commands on a Logo line. A verb takes as many inputs as it needs; an input goes on over
several words as long as it ends in an operator, or is followed by one, or has an open
parenthesis. Blocks are read into the commands that they hold.
-/

namespace Courseware.Logo

open Text

/-- An input of a command. -/
inductive Arg where
  | expr (t : Text)
  | block (t : Text)
deriving DecidableEq

def isOperatorChar (c : Char) : Bool :=
  c == '+' || c == '-' || c == '*' || c == '/' || c == '^' || c == '<' || c == '>' || c == '=' ||
    c == '%'

def endsWithOperator (t : Text) : Bool := t.getLast?.any isOperatorChar

/-- A word that continues an expression. A minus sign does so only on its own. -/
def startsWithOperator : Text → Bool
  | ['-'] => true
  | '-' :: _ => false
  | c :: _ => isOperatorChar c
  | [] => false

/-- How many more parentheses are opened than closed. -/
def openParens (t : Text) : Int :=
  t.foldl (fun n c => if c = '(' then n + 1 else if c = ')' then n - 1 else n) 0

/-- Whether the next word belongs to the expression so far. -/
def continues (expr word : Text) : Bool :=
  expr = [] || endsWithOperator expr || startsWithOperator word || 0 < openParens expr

/-- The expression that goes on from `expr`, and the words after it. -/
def takeExpression (expr : Text) : List Word → Text × List Word
  | .atom w :: r =>
    if continues expr w then takeExpression (if expr = [] then w else expr ++ ' ' :: w) r
    else (expr, .atom w :: r)
  | ws => (expr, ws)

/-- The next input, which may be a block, and the words after it. -/
def takeArg (verb : Text) : List Word → Except Misuse Arg × List Word
  | .block t :: r => (.ok (.block t), r)
  | .atom w :: r => let (e, rest) := takeExpression [] (.atom w :: r); (.ok (.expr e), rest)
  | ws => (.error (.missingInput verb), ws)

/-- The next input, which may not be a block, and the words after it. -/
def takeExpr (verb : Text) (ws : List Word) : Except Misuse Text × List Word :=
  match takeArg verb ws with
  | (.ok (.expr e), r) => (.ok e, r)
  | (.ok (.block _), r) => (.error (.blockInput verb), r)
  | (.error m, r) => (.error m, r)

/-- The next `n` inputs. -/
def takeExprs (verb : Text) : Nat → List Word → List (Except Misuse Text) × List Word
  | 0, ws => ([], ws)
  | n + 1, ws =>
    let (e, r) := takeExpr verb ws
    let (es, r') := takeExprs verb n r
    (e :: es, r')

/-- A command that holds no other commands. -/
inductive Simple where
  | motion (verb : Text) (m : Motion) (inputs : List (Except Misuse Text))
  | gesture (g : Gesture)
  | color (input : Text)
  | print (input : Arg)
  | make (name : Text) (input : Arg)
  | stop
  | define (name : Option Text)
  | call (verb : Text) (p : Procedure) (inputs : List (Except Misuse Text))
  | unknown (verb : Text)
  | faulty (m : Misuse)

/-- A command whose block, if it has one, has not been read yet. -/
inductive Phrase where
  | simple (s : Simple)
  | repeatBlock (count block : Text)
  | ifBlock (condition block : Text)

/-- The block of a phrase, as a list of at most one. -/
def Phrase.blocks : Phrase → List Text
  | simple _ => []
  | repeatBlock _ b => [b]
  | ifBlock _ b => [b]

/-- Reads the position that follows `SETPOS`: a block of two inputs, or two inputs. -/
def readPosition (verb : Text) (ws : List Word) : Simple × List Word :=
  match ws with
  | .block t :: r =>
    match splitWords t with
    | .error m => (.faulty m, r)
    | .ok us => (.motion verb .setPosition (takeExprs verb 2 us).1, r)
  | ws =>
    let (es, r) := takeExprs verb 2 ws
    (.motion verb .setPosition es, r)

def readColor (verb : Text) (ws : List Word) : Simple × List Word :=
  match takeExpr verb ws with
  | (.ok e, r) => (.color e, r)
  | (.error m, r) => (.faulty m, r)

def readPrint (verb : Text) (ws : List Word) : Simple × List Word :=
  match takeArg verb ws with
  | (.ok a, r) => (.print a, r)
  | (.error m, r) => (.faulty m, r)

/-- Reads `MAKE "NAME VALUE`; the name may be written with quotes and colons in front. -/
def readMake (verb : Text) (ws : List Word) : Simple × List Word :=
  match ws with
  | .atom w :: r =>
    let name := w.dropWhile fun c => c == '"' || c == ':'
    if name = [] then (.faulty .noVariableName, r)
    else
      match takeArg verb r with
      | (.ok a, r') => (.make name a, r')
      | (.error m, r') => (.faulty m, r')
  | ws => (.faulty (.missingInput verb), ws)

def readRepeat (verb : Text) (ws : List Word) : Phrase × List Word :=
  match ws with
  | .atom w :: r =>
    match takeExpression [] (.atom w :: r) with
    | (count, .block b :: r') => (.repeatBlock count b, r')
    | (_, r') => (.simple (.faulty .noRepeatBlock), r')
  | ws => (.simple (.faulty (.missingInput verb)), ws)

def readIf (verb : Text) (ws : List Word) : Phrase × List Word :=
  match takeExpr verb ws with
  | (.ok condition, .block b :: r) => (.ifBlock condition b, r)
  | (.ok _, r) => (.simple (.faulty .noIfBlock), r)
  | (.error m, r) => (.simple (.faulty m), r)

/-- What `TO` defines: the next word, which is left in place. -/
def definedName : List Word → Option Text
  | .atom n :: _ => some n
  | _ => none

def readCall (p : Program) (verb : Text) (ws : List Word) : Simple × List Word :=
  match p.procedure? verb with
  | none => (.unknown verb, ws)
  | some proc =>
    let (es, r) := takeExprs verb proc.params.length ws
    (.call verb proc es, r)

/-- Reads the command that begins with the word `verb`. -/
def readPhrase (p : Program) (verb : Text) (ws : List Word) : Phrase × List Word :=
  let simple := fun (x : Simple × List Word) => (Phrase.simple x.1, x.2)
  match Verb.ofName? (upper verb) with
  | some (.motion m) =>
    let (es, r) := takeExprs verb m.inputs ws
    (.simple (.motion verb m es), r)
  | some .position => simple (readPosition verb ws)
  | some (.gesture g) => (.simple (.gesture g), ws)
  | some .color => simple (readColor verb ws)
  | some .print => simple (readPrint verb ws)
  | some .make => simple (readMake verb ws)
  | some .repeatBlock => readRepeat verb ws
  | some .ifBlock => readIf verb ws
  | some .stop => (.simple .stop, ws)
  | some .define => (.simple (.define (definedName ws)), ws)
  | none => simple (readCall p verb ws)

/-! ### What reading a command leaves -/

theorem takeExpression_suffix (expr : Text) (ws : List Word) :
    (takeExpression expr ws).2 <:+ ws := by
  fun_induction takeExpression expr ws with
  | case1 expr w r h ih => exact ih.trans (List.suffix_cons _ _)
  | case2 => exact List.suffix_refl _
  | case3 => exact List.suffix_refl _

theorem takeArg_suffix (verb : Text) (ws : List Word) : (takeArg verb ws).2 <:+ ws := by
  unfold takeArg
  split
  · exact List.suffix_cons _ _
  · exact takeExpression_suffix _ _
  · exact List.suffix_refl _

theorem takeExpr_suffix (verb : Text) (ws : List Word) : (takeExpr verb ws).2 <:+ ws := by
  have h := takeArg_suffix verb ws
  unfold takeExpr
  split <;> next he => rw [he] at h; exact h

theorem takeExprs_suffix (verb : Text) (n : Nat) (ws : List Word) :
    (takeExprs verb n ws).2 <:+ ws := by
  induction n generalizing ws with
  | zero => exact List.suffix_refl _
  | succ n ih => exact (ih _).trans (takeExpr_suffix verb ws)

theorem readPosition_suffix (verb : Text) (ws : List Word) :
    (readPosition verb ws).2 <:+ ws := by
  unfold readPosition
  split
  · split <;> exact List.suffix_cons _ _
  · exact takeExprs_suffix verb 2 _

theorem readColor_suffix (verb : Text) (ws : List Word) : (readColor verb ws).2 <:+ ws := by
  have h := takeExpr_suffix verb ws
  unfold readColor
  split <;> next he => rw [he] at h; exact h

theorem readPrint_suffix (verb : Text) (ws : List Word) : (readPrint verb ws).2 <:+ ws := by
  have h := takeArg_suffix verb ws
  unfold readPrint
  split <;> next he => rw [he] at h; exact h

theorem readMake_suffix (verb : Text) (ws : List Word) : (readMake verb ws).2 <:+ ws := by
  unfold readMake
  split
  · next w r =>
    dsimp only
    split
    · exact List.suffix_cons _ _
    · have h := (takeArg_suffix verb r).trans (List.suffix_cons (Word.atom w) r)
      split <;> next he => rw [he] at h; exact h
  · exact List.suffix_refl _

theorem readCall_suffix (p : Program) (verb : Text) (ws : List Word) :
    (readCall p verb ws).2 <:+ ws := by
  unfold readCall
  split
  · exact List.suffix_refl _
  · exact takeExprs_suffix _ _ _

/-- What is left after a command, and the blocks that it took. -/
def Leaves (ws : List Word) (x : Phrase × List Word) : Prop :=
  x.2 <:+ ws ∧ ∀ b ∈ x.1.blocks, Word.block b ∈ ws

theorem leaves_simple {ws : List Word} {x : Simple × List Word} (h : x.2 <:+ ws) :
    Leaves ws (.simple x.1, x.2) :=
  ⟨h, by simp [Phrase.blocks]⟩

theorem readRepeat_leaves (verb : Text) (ws : List Word) : Leaves ws (readRepeat verb ws) := by
  unfold readRepeat
  split
  · next w r =>
    have h := takeExpression_suffix [] (.atom w :: r)
    split
    · next he =>
      rw [he] at h
      refine ⟨(List.suffix_cons _ _).trans h, ?_⟩
      intro b hb
      obtain rfl := List.mem_singleton.1 hb
      exact h.mem List.mem_cons_self
    · next he =>
      rw [he] at h
      exact ⟨h, by simp [Phrase.blocks]⟩
  · exact ⟨List.suffix_refl _, by simp [Phrase.blocks]⟩

theorem readIf_leaves (verb : Text) (ws : List Word) : Leaves ws (readIf verb ws) := by
  have h := takeExpr_suffix verb ws
  unfold readIf
  split
  · next he =>
    rw [he] at h
    refine ⟨(List.suffix_cons _ _).trans h, ?_⟩
    intro b hb
    obtain rfl := List.mem_singleton.1 hb
    exact h.mem List.mem_cons_self
  · next he =>
    rw [he] at h
    exact ⟨h, by simp [Phrase.blocks]⟩
  · next he =>
    rw [he] at h
    exact ⟨h, by simp [Phrase.blocks]⟩

theorem readPhrase_leaves (p : Program) (verb : Text) (ws : List Word) :
    Leaves ws (readPhrase p verb ws) := by
  unfold readPhrase
  dsimp only
  split
  · exact ⟨takeExprs_suffix _ _ _, by simp [Phrase.blocks]⟩
  · exact leaves_simple (readPosition_suffix _ _)
  · exact ⟨List.suffix_refl _, by simp [Phrase.blocks]⟩
  · exact leaves_simple (readColor_suffix _ _)
  · exact leaves_simple (readPrint_suffix _ _)
  · exact leaves_simple (readMake_suffix _ _)
  · exact readRepeat_leaves _ _
  · exact readIf_leaves _ _
  · exact ⟨List.suffix_refl _, by simp [Phrase.blocks]⟩
  · exact ⟨List.suffix_refl _, by simp [Phrase.blocks]⟩
  · exact leaves_simple (readCall_suffix _ _ _)

theorem wordsSize_le_of_suffix {us ws : List Word} (h : us <:+ ws) :
    wordsSize us ≤ wordsSize ws := by
  obtain ⟨vs, rfl⟩ := h
  induction vs with
  | nil => exact Nat.le_refl _
  | cons v vs ih =>
    rw [List.cons_append, wordsSize_cons]
    omega

theorem size_le_of_mem {w : Word} {ws : List Word} (h : w ∈ ws) : w.size ≤ wordsSize ws := by
  induction ws with
  | nil => cases h
  | cons v ws ih =>
    rw [wordsSize_cons]
    rcases List.mem_cons.1 h with rfl | h
    · omega
    · have := ih h
      omega

/-- The order by which reading ends: fewer characters, or as many in fewer words. -/
def Smaller (us ws : List Word) : Prop :=
  Prod.Lex (· < ·) (· < ·) (wordsSize us, us.length) (wordsSize ws, ws.length)

theorem smaller_of_suffix {us r : List Word} (w : Word) (h : us <:+ r) :
    Smaller us (w :: r) := by
  have hs := wordsSize_le_of_suffix h
  have hl := h.length_le
  rcases Nat.lt_or_ge (wordsSize us) (wordsSize (w :: r)) with hlt | hge
  · exact Prod.Lex.left _ _ hlt
  · have he : wordsSize us = wordsSize (w :: r) := by
      rw [wordsSize_cons] at hge ⊢
      omega
    rw [Smaller, he]
    exact Prod.Lex.right _ (by rw [List.length_cons]; omega)

theorem smaller_of_block {us r : List Word} {b : Text} (w : Word) (h : splitWords b = .ok us)
    (hb : Word.block b ∈ r) : Smaller us (w :: r) := by
  have hu := wordsSize_splitWords h
  have hw := size_le_of_mem hb
  refine Prod.Lex.left _ _ ?_
  rw [wordsSize_cons]
  rw [Word.size] at hw
  omega

/-! ### Sentences -/

/-- A command with the commands in its block. -/
inductive Sentence where
  | simple (s : Simple)
  | repeatBlock (count : Text) (body : List Sentence)
  | ifBlock (condition : Text) (body : List Sentence)
  /-- Where a command should stand and does not. It fails before it is counted. -/
  | stray (m : Misuse)

/-- Reads the commands on a line. A block that cannot be cut into words makes `REPEAT` fail
at once, but `IF` only when it comes to run the block. -/
def sentences (p : Program) (ws : List Word) : List Sentence :=
  match ws with
  | [] => []
  | .pause :: r => sentences p r
  | .block _ :: r => .stray .strayBlock :: sentences p r
  | .atom verb :: r =>
    match _h : readPhrase p verb r with
    | (.simple s, rest) => .simple s :: sentences p rest
    | (.repeatBlock count b, rest) =>
      (match _hb : splitWords b with
        | .error m => .simple (.faulty m)
        | .ok us => .repeatBlock count (sentences p us)) :: sentences p rest
    | (.ifBlock condition b, rest) =>
      .ifBlock condition
        (match _hb : splitWords b with
          | .error m => [.stray m]
          | .ok us => sentences p us) :: sentences p rest
termination_by (wordsSize ws, ws.length)
decreasing_by
  · exact smaller_of_suffix _ (List.suffix_refl r)
  · exact smaller_of_suffix _ (List.suffix_refl r)
  all_goals have hl := readPhrase_leaves p verb r
  all_goals rw [_h] at hl
  · exact smaller_of_suffix _ hl.1
  · exact smaller_of_block _ _hb (hl.2 b List.mem_cons_self)
  · exact smaller_of_suffix _ hl.1
  · exact smaller_of_block _ _hb (hl.2 b List.mem_cons_self)
  · exact smaller_of_suffix _ hl.1

end Courseware.Logo
