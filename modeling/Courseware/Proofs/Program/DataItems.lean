import Courseware.Program.Loading
import Courseware.Proofs.Command.Family
import Courseware.Proofs.Expr.Scanning

/-!
What becomes of the values that are written on a data line.

Whole numbers are written in decimal and texts in double quotes. The scan that finds the items
between commas leaves the quotes out, keeps all that is inside of them, and remembers that there
were some. White space at the ends of an item is then removed, in which no difference is made
between what stands inside the quotes and what stands outside. So a text comes back as it was
written if and only if it neither begins nor ends with white space.
-/

namespace Courseware

open Text

/-! ### Whole numbers -/

namespace Number

/-- The characters of a whole number neither are white space nor play a part on a data line. -/
lemma plain_of_mem_signedDecimal {n : ℤ} {c : Char} (hc : c ∈ signedDecimal n) :
    isBlank c = false ∧ c ≠ '"' ∧ c ≠ ',' := by
  rcases of_mem_signedDecimal hc with rfl | hc
  · decide
  · refine ⟨isBlank_of_isDigit hc, ?_, ?_⟩ <;> rintro rfl <;> exact absurd hc (by decide)

end Number

namespace Program

/-! ### Items -/

variable {quoted marked : Bool} {current b t r : Text} {v : Value} {vs : List Value}

/-- Whole numbers, and texts that can stand in double quotes on one line. -/
def Writable : Value → Prop
  | .integer _ => True
  | .float _ => False
  | .text t => '"' ∉ t ∧ '\n' ∉ t

/-- What is written of a value between its quotes, if it has any. -/
def content : Value → Text
  | .integer n => Number.signedDecimal n.toInt
  | .float x => Number.plain x
  | .text t => t

def isQuoted : Value → Bool
  | .text _ => true
  | _ => false

/-- A value as it is written on a data line. -/
def written (v : Value) : Text := if isQuoted v then '"' :: (content v ++ ['"']) else content v

/-- The value without white space at the ends of a text. -/
def trimmed : Value → Value
  | .text t => .text (trim t)
  | v => v

/-- Characters that neither end an item nor are quotes are kept. -/
lemma splitItems_append (ht : ∀ c ∈ t, c ≠ '"' ∧ (c = ',' → quoted = true)) :
    splitItems quoted marked current (t ++ r) =
      splitItems quoted marked (t.reverse ++ current) r := by
  induction t generalizing current with
  | nil => rfl
  | cons c t ih =>
    rw [List.forall_mem_cons] at ht
    have hcomma : ¬(c = ',' ∧ (!quoted) = true) := by
      rintro ⟨hc, hq⟩
      simp [ht.1.2 hc] at hq
    rw [List.cons_append, splitItems, if_neg ht.1.1, if_neg hcomma, ih ht.2]
    simp

lemma splitItems_written (hv : Writable v) :
    splitItems false false current (written v ++ r) =
      splitItems false (isQuoted v) ((content v).reverse ++ current) r := by
  cases v with
  | integer n =>
    have hplain : ∀ c ∈ Number.signedDecimal n.toInt, c ≠ '"' ∧ (c = ',' → false = true) := by
      intro c hc
      obtain ⟨-, hquote, hcomma⟩ := Number.plain_of_mem_signedDecimal hc
      exact ⟨hquote, fun he => absurd he hcomma⟩
    exact splitItems_append hplain
  | float x => cases hv
  | text t =>
    -- between the quotes a comma does not separate
    have hquotes : ∀ c ∈ t, c ≠ '"' ∧ (c = ',' → true = true) :=
      fun c hc => ⟨fun he => hv.1 (he ▸ hc), fun _ => rfl⟩
    change splitItems false false current ('"' :: ((t ++ ['"']) ++ r)) = _
    rw [splitItems, if_pos rfl, List.append_assoc, Bool.not_false, splitItems_append hquotes,
      List.singleton_append, splitItems, if_pos rfl]
    rfl

/-- The item of a value with white space in front of it. -/
def item (b : Text) (v : Value) : Text × Bool := (b ++ content v, isQuoted v)

lemma splitItems_join (hb : b.all isBlank = true) (hvs : ∀ w ∈ v :: vs, Writable w) :
    splitItems false false current (join (',' :: b) ((v :: vs).map written)) =
      item current.reverse v :: vs.map (item b) := by
  induction vs generalizing v current with
  | nil =>
    have hwritten : splitItems false false current (written v ++ []) =
        splitItems false (isQuoted v) ((content v).reverse ++ current) [] :=
      splitItems_written (hvs v List.mem_cons_self)
    rw [List.append_nil] at hwritten
    change splitItems false false current (written v) = _
    rw [hwritten, splitItems]
    simp [item]
  | cons w ws ih =>
    have hblank : ∀ c ∈ b, c ≠ '"' ∧ (c = ',' → false = true) := by
      intro c hc
      have hc := List.all_eq_true.1 hb c hc
      refine ⟨?_, ?_⟩ <;> rintro rfl <;> exact absurd hc (by decide)
    rw [List.forall_mem_cons] at hvs
    have hjoin : join (',' :: b) ((v :: w :: ws).map written) =
        written v ++ (',' :: (b ++ join (',' :: b) ((w :: ws).map written))) := by
      simp [join]
    -- the comma ends the first item, and the blanks behind it go to the second
    rw [hjoin, splitItems_written hvs.1, splitItems, if_neg (by decide), if_pos (by decide),
      splitItems_append hblank, ih hvs.2]
    simp [item]

/-- Trimming is all that happens to a value. -/
lemma itemValue_item (hb : b.all isBlank = true) (hv : Writable v) :
    itemValue (item b v) = trimmed v := by
  cases v with
  | integer n =>
    have htrim := (Number.solid_signedDecimal n.toInt).trim_append hb
    exact Value.ofInput_of_trim htrim
  | float x => cases hv
  | text t => exact congrArg Value.text (trim_blank_append hb t)

lemma dataItems_eq {items : List (Text × Bool)} (h : splitItems false false [] t = items)
    (hblank : ∀ s, items = [(s, false)] → isBlankText s = false) :
    dataItems t = items.map itemValue := by
  unfold dataItems
  rw [h]
  split
  · next s =>
    rw [if_neg (by simp [hblank s rfl])]
    rfl
  · rfl

/-- Without quotes there is a number, and something else than white space. -/
lemma isBlankText_of_unquoted {s : Text} (hv : Writable v) (hs : item [] v = (s, false)) :
    isBlankText s = false := by
  cases v with
  | integer n =>
    obtain rfl : Number.signedDecimal n.toInt = s := congrArg Prod.fst hs
    obtain ⟨c, r, hn⟩ := List.exists_cons_of_ne_nil (Number.signedDecimal_ne_nil n.toInt)
    have hc := (Number.plain_of_mem_signedDecimal (hn ▸ List.mem_cons_self : c ∈ _)).1
    simp [hn, isBlankText, hc]
  | float x => cases hv
  | text t => cases congrArg Prod.snd hs

lemma dataItems_join (hb : b.all isBlank = true) (hne : vs ≠ [])
    (hvs : ∀ v ∈ vs, Writable v) :
    dataItems (join (',' :: b) (vs.map written)) = vs.map trimmed := by
  obtain ⟨v, vs, rfl⟩ := List.exists_cons_of_ne_nil hne
  have hblank : ∀ s, item [] v :: vs.map (item b) = [(s, false)] → isBlankText s = false := by
    intro s hs
    exact isBlankText_of_unquoted (hvs v List.mem_cons_self) (List.cons.inj hs).1
  rw [dataItems_eq (splitItems_join hb hvs) hblank]
  rw [List.forall_mem_cons] at hvs
  have hrest : (vs.map (item b)).map itemValue = vs.map trimmed := by
    rw [List.map_map]
    exact List.map_congr_left fun w hw => itemValue_item hb (hvs.2 w hw)
  rw [List.map_cons, hrest, List.reverse_nil, itemValue_item rfl hvs.1]
  rfl

/-! ### Data lines -/

/-- A line of data with the given values, with white space behind the commas. -/
def dataLine (b : Text) (vs : List Value) : Text :=
  "DATA ".toList ++ join (',' :: b) (vs.map written)

/-- A text without line feeds is one line. -/
lemma lines_of_not_mem (hne : t ≠ []) (ht : '\n' ∉ t) : Text.lines t = [t] := by
  have hpieces : pieces (· == '\n') t = [t] :=
    pieces_of_not fun c hc => beq_eq_false_iff_ne.2 fun he => ht (he ▸ hc)
  simp [Text.lines, hpieces, hne]

lemma firstWord_data (r : Text) : firstWord ("DATA ".toList ++ r) = "DATA".toList :=
  congrArg (·.headD []) (words_name (w := "DATA".toList) (s := ' ') rfl rfl r)

/-- A line of data is kept as it is. -/
lemma read?_data {r : Text} (hr : Solid r) (n : ℕ) :
    Line.read? n ("DATA ".toList ++ r) = some ⟨n, none, "DATA ".toList ++ r⟩ := by
  have hword : Solid "DATA".toList := ⟨by decide, by rintro c ⟨⟩; rfl, by rintro c ⟨⟩; rfl⟩
  have htrim : trim ("DATA ".toList ++ r) = "DATA ".toList ++ r :=
    (hword.append hr " ".toList).trim_eq
  have hnumber : Line.splitNumber ("DATA ".toList ++ r) = (none, "DATA ".toList ++ r) := rfl
  have hcomment : Line.isComment ("DATA ".toList ++ r) = false := by
    change sameWord (firstWord ("DATA ".toList ++ r)) "REM".toList = false
    rw [firstWord_data]
    rfl
  have hne : "DATA ".toList ++ r ≠ [] := List.cons_ne_nil _ _
  simp only [Line.read?, htrim, if_neg hne, hnumber, hcomment, Bool.false_eq_true, if_false]

lemma load_data {r : Text} (hr : Solid r) (hline : '\n' ∉ r) :
    ∃ p, load ("DATA ".toList ++ r) = .ok p ∧ p.data = dataItems r := by
  have hlines : Text.lines ("DATA ".toList ++ r) = ["DATA ".toList ++ r] :=
    lines_of_not_mem (by simp) (by simp [hline])
  have hread : Line.readAll ("DATA ".toList ++ r) = [⟨1, none, "DATA ".toList ++ r⟩] := by
    rw [Line.readAll, hlines]
    change ([("DATA ".toList ++ r, 0)].filterMap fun x => Line.read? (x.2 + 1) x.1) = _
    rw [List.filterMap_cons, read?_data hr]
    rfl
  have hdata : lineData ⟨1, none, "DATA ".toList ++ r⟩ = dataItems r := by
    have htrim : trim (' ' :: r) = r := hr.trim_append (b := " ".toList) rfl
    unfold lineData
    simp only [firstWord_data]
    change dataItems (trim (' ' :: r)) = _
    rw [htrim]
  unfold load
  rw [hread]
  exact ⟨_, rfl, (List.append_nil _).trans hdata⟩

lemma solid_written (hv : Writable v) : Solid (written v) := by
  cases v with
  | integer n => exact Number.solid_signedDecimal _
  | float x => cases hv
  | text t => exact solid_of_ends (by decide) (by decide) t

lemma not_mem_written (hv : Writable v) : '\n' ∉ written v := by
  cases v with
  | integer n => exact fun hc => absurd (Number.plain_of_mem_signedDecimal hc).1 (by decide)
  | float x => cases hv
  | text t => simp [written, isQuoted, content, hv.2]

lemma not_mem_join {c : Char} {sep : Text} {ts : List Text} (hsep : c ∉ sep)
    (hts : ∀ t ∈ ts, c ∉ t) : c ∉ join sep ts := by
  induction ts with
  | nil => exact List.not_mem_nil
  | cons t ts ih =>
    rw [List.forall_mem_cons] at hts
    cases ts with
    | nil => exact hts.1
    | cons u us => simp [join, hsep, hts.1, ih hts.2]

lemma map_trimmed_eq_iff : vs.map trimmed = vs ↔ ∀ t, Value.text t ∈ vs → trim t = t := by
  induction vs with
  | nil => simp
  | cons v vs ih =>
    cases v with
    | integer n => simp [trimmed, ih]
    | float x => simp [trimmed, ih]
    | text t => simp [trimmed, ih]

/-- **A data line gives its values back, with its texts trimmed.** So the data of a program of one
line are the values that are written on it if and only if no text among them begins or ends with
white space. -/
theorem data_of_line (hb : b.all isBlank = true) (hline : '\n' ∉ b) (hne : vs ≠ [])
    (hvs : ∀ v ∈ vs, Writable v) :
    ∃ p, load (dataLine b vs) = .ok p ∧ p.data = vs.map trimmed ∧
      (p.data = vs ↔ ∀ t, Value.text t ∈ vs → trim t = t) := by
  have hsolid : ∀ t ∈ vs.map written, Solid t := by
    intro t ht
    obtain ⟨v, hv, rfl⟩ := List.mem_map.1 ht
    exact solid_written (hvs v hv)
  have hplain : ∀ t ∈ vs.map written, '\n' ∉ t := by
    intro t ht
    obtain ⟨v, hv, rfl⟩ := List.mem_map.1 ht
    exact not_mem_written (hvs v hv)
  have hjoined : '\n' ∉ join (',' :: b) (vs.map written) :=
    not_mem_join (by simp [hline]) hplain
  obtain ⟨p, hload, hdata⟩ := load_data (solid_join (by simpa using hne) hsolid) hjoined
  rw [dataItems_join hb hne hvs] at hdata
  exact ⟨p, hload, hdata, hdata ▸ map_trimmed_eq_iff⟩

/-- A comma, digits and nothing at all in quotes, beside a number below zero. -/
theorem data_of_line_quoted :
    ∃ p vs, vs = [.integer (-7), .text "a, b".toList, .text "12".toList, .text []] ∧
      dataLine " ".toList vs = "DATA -7, \"a, b\", \"12\", \"\"".toList ∧
      (∀ v ∈ vs, Writable v) ∧ load (dataLine " ".toList vs) = .ok p ∧ p.data = vs := by
  obtain ⟨vs, hlist⟩ : ∃ vs : List Value,
      vs = [.integer (-7), .text "a, b".toList, .text "12".toList, .text []] := ⟨_, rfl⟩
  have hvs : ∀ v ∈ vs, Writable v := by simp [hlist, Writable]
  have htrimmed : ∀ t, Value.text t ∈ vs → trim t = t := by
    simp only [hlist, List.mem_cons, Value.text.injEq, reduceCtorEq, List.not_mem_nil, or_false,
      false_or]
    rintro t (rfl | rfl | rfl) <;> decide
  have hnumber : written (.integer (-7)) = "-7".toList := by with_unfolding_all rfl
  have hwritten : vs.map written =
      ["-7".toList, "\"a, b\"".toList, "\"12\"".toList, "\"\"".toList] := by
    rw [hlist, List.map_cons, hnumber]
    rfl
  have hline : dataLine " ".toList vs = "DATA -7, \"a, b\", \"12\", \"\"".toList := by
    have hjoin : dataLine " ".toList vs =
        "DATA ".toList ++ join (',' :: " ".toList) (vs.map written) := rfl
    rw [hjoin, hwritten]
    rfl
  obtain ⟨p, hload, -, hdata⟩ :=
    data_of_line (b := " ".toList) rfl (by decide) (by simp [hlist]) hvs
  exact ⟨p, vs, hlist, hline, hvs, hload, hdata.2 htrimmed⟩

/-- A quoted text loses the white space at its ends. -/
theorem quoted_item_loses_blanks :
    ∃ p, load (dataLine [] [.text " a ".toList]) = .ok p ∧ Writable (.text " a ".toList) ∧
      p.data = [.text "a".toList] ∧ p.data ≠ [.text " a ".toList] := by
  obtain ⟨p, hload, hdata⟩ : ∃ p, load (dataLine [] [.text " a ".toList]) = .ok p ∧
      p.data = [.text "a".toList] := ⟨_, rfl, rfl⟩
  refine ⟨p, hload, by simp [Writable], hdata, ?_⟩
  simp [hdata]

end Program

end Courseware
