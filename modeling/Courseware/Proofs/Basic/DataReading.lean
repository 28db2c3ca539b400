import Courseware.Proofs.Command.Composition
import Courseware.Proofs.Command.Reading

/-!
Giving items of data to variables.

A statement `READ` takes the next item of data for each of its variables, and fails when there is
none left. What it has taken by then stays taken. So it makes no difference how the variables are
spread over statements: they get the items in order, none twice and none left out, as long as there
are items.
-/

namespace Courseware

open Text Exec

namespace Machine

/-- Variables are set one after the other. -/
def assignAll (m : Machine) (as : List (Text × Value)) : Machine :=
  as.foldl (fun m a => m.setVariable a.1 a.2) m

/-- Variables are given the next items of data. -/
def supplied (m : Machine) (as : List (Text × Value)) : Machine :=
  { m.assignAll as with dataRead := m.dataRead + as.length }

@[simp] lemma dataRead_supplied (m : Machine) (as : List (Text × Value)) :
    (m.supplied as).dataRead = m.dataRead + as.length := rfl

/-- Setting variables does not depend on how much has been read. -/
lemma assignAll_dataRead (m : Machine) (d : Nat) (as : List (Text × Value)) :
    { m with dataRead := d }.assignAll as = { m.assignAll as with dataRead := d } := by
  induction as generalizing m with
  | nil => rfl
  | cons a as ih => exact ih (m.setVariable a.1 a.2)

lemma supplied_cons (m : Machine) (a : Text × Value) (as : List (Text × Value)) :
    m.supplied (a :: as) =
      ({ m with dataRead := m.dataRead + 1 }.setVariable a.1 a.2).supplied as := by
  have hassign := assignAll_dataRead (m.setVariable a.1 a.2) (m.dataRead + 1) as
  have hcount : m.dataRead + (a :: as).length = m.dataRead + 1 + as.length := by
    simp only [List.length_cons]
    omega
  change { (m.setVariable a.1 a.2).assignAll as with dataRead := m.dataRead + (a :: as).length } =
    { { m.setVariable a.1 a.2 with dataRead := m.dataRead + 1 }.assignAll as with
      dataRead := m.dataRead + 1 + as.length }
  rw [hassign, hcount]

end Machine

namespace Basic

variable {env : Environment} {m n : Machine} {p : Program}

/-! ### One statement -/

lemma readData_of_none {name : Text} {names : List Text}
    (h : env.program.data[m.dataRead]? = none) :
    readData (name :: names) env m = .error .outOfData m := by
  unfold readData
  refine (bind_of_ok (a := env.program) rfl).trans ((bind_of_ok (a := m) rfl).trans ?_)
  rw [h]
  rfl

lemma readData_of_some {name : Text} {names : List Text} {v : Value}
    (h : env.program.data[m.dataRead]? = some v) :
    readData (name :: names) env m =
      readData names env ({ m with dataRead := m.dataRead + 1 }.setVariable name v) := by
  rw [readData]
  refine (bind_of_ok (a := env.program) rfl).trans ((bind_of_ok (a := m) rfl).trans ?_)
  rw [h]
  rfl

/-- A statement supplies as many of its variables as there are items, and fails if these are too
few. -/
lemma readData_eq (names : List Text) (env : Environment) (m : Machine) :
    readData names env m =
      if names.length ≤ env.program.data.length - m.dataRead then
        .ok .next (m.supplied (names.zip (env.program.data.drop m.dataRead)))
      else .error .outOfData (m.supplied (names.zip (env.program.data.drop m.dataRead))) := by
  induction names generalizing m with
  | nil =>
    rw [if_pos (by simp)]
    rfl
  | cons name names ih =>
    cases hitem : env.program.data[m.dataRead]? with
    | none =>
      have hend : env.program.data.length ≤ m.dataRead := List.getElem?_eq_none_iff.1 hitem
      rw [readData_of_none hitem, if_neg (by simp only [List.length_cons]; omega),
        List.drop_eq_nil_of_le hend]
      rfl
    | some v =>
      obtain ⟨hlt, hv⟩ := List.getElem?_eq_some_iff.1 hitem
      -- one item for this name, and the others for the names after it
      have hdrop : env.program.data.drop m.dataRead =
          v :: env.program.data.drop (m.dataRead + 1) := by
        rw [List.drop_eq_getElem_cons hlt, hv]
      have hfits : names.length ≤ env.program.data.length - (m.dataRead + 1) ↔
          (name :: names).length ≤ env.program.data.length - m.dataRead := by
        simp only [List.length_cons]
        omega
      have hrest := ih ({ m with dataRead := m.dataRead + 1 }.setVariable name v)
      have hread : ({ m with dataRead := m.dataRead + 1 }.setVariable name v).dataRead =
          m.dataRead + 1 := rfl
      rw [readData_of_some hitem, hrest, hread, hdrop, List.zip_cons_cons,
        Machine.supplied_cons]
      simp only [hfits]

/-- The names of a statement, of which `t` is what follows the keyword. -/
def readNames (t : Text) : List Text := ((pieces (· == ',') t).map trim).filter (· ≠ [])

lemma readRead_eq {t : Text} (h : readNames t ≠ []) :
    Statement.readRead t = .read (readNames t) := by
  unfold Statement.readRead
  split
  · next hnil => exact absurd hnil h
  · rfl

lemma execute_read {w a : Text} (hw : upper w = "READ".toList) (ha : EndsName a)
    (hne : readNames (trim a) ≠ []) (room : Nat) (env : Environment) (m : Machine) :
    execute room (w ++ a) env m = readData (readNames (trim a)) env m := by
  have hkeyword : Keyword.ofName? (upper w) = some .read := by rw [hw]; rfl
  have hstatement : Statement.ofKeyword .read (trim a) = .read (readNames (trim a)) :=
    readRead_eq hne
  rw [Command.execute_keyword hkeyword (by decide) ha, hstatement]
  rfl

/-! ### Many statements -/

/-- A statement with its variables, the machine before it and what came of it. -/
structure Reading where
  names : List Text
  before : Machine
  result : EStateM.Result ExecError Machine Directive

namespace Reading

/-- The variables with the items that come next, as far as there are any. -/
def share (p : Program) (r : Reading) : List (Text × Value) :=
  r.names.zip (p.data.drop r.before.dataRead)

/-- What came of the statement, if it was executed as a command of the program. -/
inductive Executed (p : Program) : Reading → Prop where
  | command {w a : Text} (hw : upper w = "READ".toList) (ha : EndsName a)
      (hne : readNames (trim a) ≠ []) (room : Nat) {env : Environment} (henv : env.program = p)
      (m : Machine) : Executed p ⟨readNames (trim a), m, execute room (w ++ a) env m⟩

variable {r : Reading}

lemma Executed.names_ne_nil (h : r.Executed p) : r.names ≠ [] := by
  cases h with
  | command _ _ hne _ _ _ => exact hne

lemma Executed.result_eq (h : r.Executed p) :
    r.result =
      if r.names.length ≤ p.data.length - r.before.dataRead then
        .ok .next (r.before.supplied (r.share p))
      else .error .outOfData (r.before.supplied (r.share p)) := by
  cases h with
  | @command w a hw ha hne room env henv m =>
    subst henv
    exact (execute_read hw ha hne room env m).trans (readData_eq _ env m)

lemma Executed.dataRead_after (h : r.Executed p) :
    (final r.result).dataRead =
      r.before.dataRead + min r.names.length (p.data.length - r.before.dataRead) := by
  have hfinal : final r.result = r.before.supplied (r.share p) := by
    rw [h.result_eq]
    split <;> rfl
  rw [hfinal, Machine.dataRead_supplied, share, List.length_zip, List.length_drop]

end Reading

/-- The names of the variables of all statements, in order. -/
def allNames (rs : List Reading) : List Text := rs.flatMap (·.names)

@[simp] lemma allNames_nil : allNames [] = [] := rfl

@[simp] lemma allNames_cons (r : Reading) (rs : List Reading) :
    allNames (r :: rs) = r.names ++ allNames rs := rfl

/-- Statements were executed one after the other, from the machine `m` to the machine `n`. Between
them, anything may have been done that does not change how much of the data has been read. -/
inductive Readings (p : Program) : Machine → List Reading → Machine → Prop where
  | done (m : Machine) : Readings p m [] m
  | aside {m m' n : Machine} {rs : List Reading} (hm : m'.dataRead = m.dataRead)
      (hrs : Readings p m' rs n) : Readings p m rs n
  | read {r : Reading} {rs : List Reading} {n : Machine} (hr : r.Executed p)
      (hrs : Readings p (final r.result) rs n) : Readings p r.before (r :: rs) n

/-- Items for the first variables are left out when it comes to the others. -/
lemma zip_append_left {α β : Type} (xs ys : List α) (l : List β) :
    (xs ++ ys).zip l = xs.zip l ++ ys.zip (l.drop xs.length) := by
  induction xs generalizing l with
  | nil => rfl
  | cons x xs ih =>
    cases l with
    | nil => simp
    | cons b l => simp [ih]

namespace Readings

variable {rs : List Reading} {r : Reading}

lemma executed (h : Readings p m rs n) : ∀ r ∈ rs, r.Executed p := by
  induction h with
  | done m => exact fun r hr => by cases hr
  | aside _ _ ih => exact ih
  | read hr _ ih => exact List.forall_mem_cons.2 ⟨hr, ih⟩

/-- How much has been read before each statement. -/
lemma dataRead_before (h : Readings p m rs n) (hm : m.dataRead ≤ p.data.length) {j : ℕ}
    (hj : rs[j]? = some r) :
    r.before.dataRead =
      m.dataRead + min (allNames (rs.take j)).length (p.data.length - m.dataRead) := by
  induction h generalizing j with
  | done m => cases hj
  | aside hsame _ ih =>
    rw [← hsame]
    exact ih (hsame ▸ hm) hj
  | read hr _ ih =>
    have hafter := hr.dataRead_after
    cases j with
    | zero =>
      cases hj
      simp
    | succ j =>
      have hbefore := ih (by omega) hj
      simp only [List.take_succ_cons, allNames_cons, List.length_append]
      omega

/-- How much has been read in the end. -/
lemma dataRead_eq (h : Readings p m rs n) (hm : m.dataRead ≤ p.data.length) :
    n.dataRead = m.dataRead + min (allNames rs).length (p.data.length - m.dataRead) := by
  induction h with
  | done m => simp
  | aside hsame _ ih =>
    rw [← hsame]
    exact ih (hsame ▸ hm)
  | read hr _ ih =>
    have hafter := hr.dataRead_after
    have hrest := ih (by omega)
    simp only [allNames_cons, List.length_append]
    omega

/-- The shares of the statements, put together, are what all variables are due. -/
lemma flatMap_share (h : Readings p m rs n) (hm : m.dataRead ≤ p.data.length) :
    rs.flatMap (·.share p) = (allNames rs).zip (p.data.drop m.dataRead) := by
  induction h with
  | done m => rfl
  | aside hsame _ ih =>
    rw [← hsame]
    exact ih (hsame ▸ hm)
  | @read r rs n hr _ ih =>
    have hafter := hr.dataRead_after
    have hrest := ih (by omega)
    -- a statement that runs out of data has taken all that there was, and no more is left
    have hdrop : p.data.drop (final r.result).dataRead =
        (p.data.drop r.before.dataRead).drop r.names.length := by
      rw [List.drop_drop]
      rcases le_total r.names.length (p.data.length - r.before.dataRead) with hle | hle
      · rw [hafter, min_eq_left hle]
      · rw [List.drop_eq_nil_of_le (by omega), List.drop_eq_nil_of_le (by omega)]
    rw [List.flatMap_cons, hrest, allNames_cons, zip_append_left, hdrop]
    rfl

end Readings

/-- **Data are read in order, once each, however the variables are spread over statements.** The
variables of all statements are given the items from the first unread one on, as many as there are,
and so many items count as read. Each statement does its share of that and nothing else, and it
fails for want of data if and only if the variables up to and including its own are more than the
items that were unread. -/
theorem reads_supply_in_order {rs : List Reading} (h : Readings p m rs n)
    (hm : m.dataRead ≤ p.data.length) :
    rs.flatMap (·.share p) = (allNames rs).zip (p.data.drop m.dataRead) ∧
    n.dataRead = m.dataRead + min (allNames rs).length (p.data.length - m.dataRead) ∧
    ∀ j r, rs[j]? = some r →
      r.result =
        if p.data.length - m.dataRead < (allNames (rs.take (j + 1))).length then
          .error .outOfData (r.before.supplied (r.share p))
        else .ok .next (r.before.supplied (r.share p)) := by
  refine ⟨h.flatMap_share hm, h.dataRead_eq hm, fun j r hj => ?_⟩
  have hr := h.executed r (List.mem_of_getElem? hj)
  have hpos := List.length_pos_of_ne_nil hr.names_ne_nil
  have hbefore := h.dataRead_before hm hj
  have hcount : (allNames (rs.take (j + 1))).length =
      (allNames (rs.take j)).length + r.names.length := by
    rw [List.take_add_one, hj]
    simp [allNames]
  have hshort : p.data.length - m.dataRead < (allNames (rs.take (j + 1))).length ↔
      ¬ r.names.length ≤ p.data.length - r.before.dataRead := by
    omega
  rw [hr.result_eq]
  simp only [hshort, ite_not]

/-- Three items for five variables in three statements, with something printed in between: the
second statement fails in the middle and the third at once. -/
theorem reads_supply_in_order_short :
    ∃ (p : Program) (m n : Machine) (r₁ r₂ r₃ : Reading),
      Readings p m [r₁, r₂, r₃] n ∧ m.dataRead ≤ p.data.length ∧
      [r₁, r₂, r₃].map (·.names) =
        [["A".toList, "B".toList], ["c".toList, "d".toList], ["E".toList]] ∧
      [r₁, r₂, r₃].flatMap (·.share p) =
        [("A".toList, .integer 1), ("B".toList, .text "x".toList), ("c".toList, .integer 3)] ∧
      n.dataRead = 3 ∧
      r₁.result = .ok .next (r₁.before.supplied (r₁.share p)) ∧
      r₂.result = .error .outOfData (r₂.before.supplied (r₂.share p)) ∧
      r₃.result = .error .outOfData (r₃.before.supplied (r₃.share p)) := by
  let p : Program := { data := [.integer 1, .text "x".toList, .integer 3] }
  let env : Environment := ⟨p, {}, 0⟩
  have henv : env.program = p := rfl
  let reading (a : Text) (m : Machine) : Reading :=
    ⟨readNames (trim a), m, execute 0 ("READ".toList ++ a) env m⟩
  let r₁ := reading " A, B".toList default
  let r₂ := reading " c,,d".toList ((final r₁.result).emit (.text []))
  let r₃ := reading " E".toList (final r₂.result)
  have hexecuted : ∀ r m, readNames (trim (' ' :: r)) ≠ [] → (reading (' ' :: r) m).Executed p :=
    fun r m hne => .command (w := "READ".toList) rfl (endsName_blank (s := ' ') rfl r) hne 0 henv m
  have hsame : r₂.before.dataRead = (final r₁.result).dataRead := rfl
  have hrs : Readings p default [r₁, r₂, r₃] (final r₃.result) :=
    .read (hexecuted _ _ (by decide)) (.aside hsame
      (.read (hexecuted _ _ (by decide)) (.read (hexecuted _ _ (by decide)) (.done _))))
  have hm : (default : Machine).dataRead ≤ p.data.length := Nat.zero_le _
  obtain ⟨hshares, hread, hresult⟩ := reads_supply_in_order hrs hm
  exact ⟨p, default, final r₃.result, r₁, r₂, r₃, hrs, hm, rfl, hshares.trans rfl, hread.trans rfl,
    (hresult 0 r₁ rfl).trans (if_neg (by decide)), (hresult 1 r₂ rfl).trans (if_pos (by decide)),
    (hresult 2 r₃ rfl).trans (if_pos (by decide))⟩

end Basic

end Courseware
