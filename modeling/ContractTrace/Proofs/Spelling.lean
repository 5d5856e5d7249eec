import ContractTrace.TypeName
import ContractTrace.Proofs.Decimal

/-! Names of types. An integer type has many spellings: its width may be left out, or have a plus
sign or zeros in front. They are all read to the one type, and no other text is. The text of an
integer type is its shortest spelling with a width, and a text that names no integer type is kept
as it stands, so reading the text of what was read changes nothing. -/

namespace ContractTrace

/-! ### Integer types -/

namespace IntegerType

/-- What the spellings of a type begin with. -/
def stem (signed : Bool) : String := if signed then "int" else "uint"

/-- The spellings of a type: the stem alone for a width of 256, or the stem and a numeral of
the width. -/
inductive Spells : String → IntegerType → Prop
  | bare (signed : Bool) : Spells (stem signed) ⟨signed, 256⟩
  | sized (signed : Bool) {width : String} {bits : Nat}
      (numeral : Decimal.Unsigned width.toList bits) (valid : Valid ⟨signed, bits⟩) :
      Spells (stem signed ++ width) ⟨signed, bits⟩

theorem Spells.valid {text : String} {ty : IntegerType} (h : Spells text ty) : ty.Valid := by
  cases h with
  | bare signed =>
    show 8 ≤ 256 ∧ 256 ≤ 256 ∧ 256 % 8 = 0
    decide
  | sized signed _ valid => exact valid

theorem split?_eq_some_iff {cs width : List Char} {signed : Bool} :
    split? cs = some (signed, width) ↔ cs = (stem signed).toList ++ width := by
  constructor
  · intro h
    unfold split? at h
    split at h <;> cases h <;> simp [stem]
  · rintro rfl
    cases signed <;> simp [stem, split?]

theorem width?_eq_some_iff {cs : List Char} {bits : Nat} :
    width? cs = some bits ↔
      cs = [] ∧ bits = 256 ∨ Decimal.Unsigned cs bits ∧ bits < twoPow 16 := by
  cases cs with
  | nil =>
    have hnone : ¬ Decimal.Unsigned [] bits := by
      rintro ⟨h⟩
      exact h.ne_nil rfl
    simp [width?, hnone, eq_comm]
  | cons c cs => simp [width?, Option.bind_eq_some_iff, Decimal.unsigned?_eq_some_iff]

theorem make_eq_ok_iff {signed : Bool} {bits : Nat} {ty : IntegerType} :
    make signed bits = .ok ty ↔ ⟨signed, bits⟩ = ty ∧ ty.Valid := by
  have hvalid : Valid ⟨signed, bits⟩ ↔ ¬ (bits = 0 ∨ 256 < bits ∨ bits % 8 ≠ 0) := by
    show 8 ≤ bits ∧ bits ≤ 256 ∧ bits % 8 = 0 ↔ _
    omega
  rw [make]
  split
  next h =>
    constructor
    · intro hok
      cases hok
    · rintro ⟨rfl, hty⟩
      exact absurd h (hvalid.1 hty)
  next h =>
    rw [Except.ok.injEq]
    exact ⟨fun hty => ⟨hty, hty ▸ hvalid.2 h⟩, And.left⟩

theorem spells_of_parse {text : String} {ty : IntegerType} (h : parse text = .ok ty) :
    Spells text ty := by
  unfold parse at h
  split at h
  · cases h
  next signed width hsplit =>
    have htext : text = stem signed ++ String.ofList width := by
      rw [← String.toList_inj, split?_eq_some_iff.1 hsplit, String.toList_append,
        String.toList_ofList]
    split at h
    · cases h
    next bits hwidth =>
      obtain ⟨rfl, hvalid⟩ := make_eq_ok_iff.1 h
      rcases width?_eq_some_iff.1 hwidth with ⟨rfl, rfl⟩ | ⟨hnumeral, -⟩
      · have hbare : text = stem signed := htext.trans String.append_empty
        exact hbare ▸ .bare signed
      · exact htext ▸ .sized signed (by rwa [String.toList_ofList]) hvalid

theorem parse_of_spells {text : String} {ty : IntegerType} (h : Spells text ty) :
    parse text = .ok ty := by
  cases h with
  | bare signed =>
    have hsplit : split? (stem signed).toList = some (signed, []) :=
      split?_eq_some_iff.2 (List.append_nil _).symm
    have hwidth : width? [] = some 256 := rfl
    have hmake : make signed 256 = .ok ⟨signed, 256⟩ := rfl
    simp only [parse, hsplit, hwidth, hmake]
  | @sized signed width bits numeral valid =>
    have hsplit : split? (stem signed ++ width).toList = some (signed, width.toList) :=
      split?_eq_some_iff.2 String.toList_append
    -- sixteen bits turn away only widths that no type has
    have hbound : bits < twoPow 16 := Nat.lt_of_le_of_lt valid.2.1 (by decide)
    have hwidth : width? width.toList = some bits := width?_eq_some_iff.2 (.inr ⟨numeral, hbound⟩)
    simp only [parse, hsplit, hwidth, make_eq_ok_iff.2 ⟨rfl, valid⟩]

theorem valid_of_parse {text : String} {ty : IntegerType} (h : parse text = .ok ty) : ty.Valid :=
  (spells_of_parse h).valid

theorem parse_text {ty : IntegerType} (h : ty.Valid) : parse ty.text = .ok ty := by
  have hnumeral : Decimal.Unsigned (Decimal.ofNat ty.bits).toList ty.bits := by
    rw [Decimal.ofNat, String.toList_ofList]
    exact .bare (Decimal.digits_natChars ty.bits)
  exact parse_of_spells (.sized ty.signed hnumeral h)

end IntegerType

/-! ### Declared types -/

namespace TypeName

theorem ofText_eq_integer_iff {text : String} {ty : IntegerType} :
    ofText text = .integer ty ↔ IntegerType.parse text = .ok ty := by
  constructor
  · intro h
    unfold ofText at h
    split at h
    · cases h
    · split at h <;> cases h
      assumption
  · intro h
    have hbool : text ≠ "bool" := by
      rintro rfl
      cases h
    simp only [ofText, if_neg hbool, h]

theorem text_ofText_of_error {text : String} {e : IntegerType.ParseError}
    (h : IntegerType.parse text = .error e) : (ofText text).text = text := by
  unfold ofText
  split
  next hbool => exact hbool.symm
  · rw [h]
    rfl

/-- The type is what some spelling stands for. -/
def Canonical (t : TypeName) : Prop := ∃ text, ofText text = t

theorem Canonical.valid {ty : IntegerType} (h : (TypeName.integer ty).Canonical) : ty.Valid := by
  obtain ⟨text, htext⟩ := h
  exact IntegerType.valid_of_parse (ofText_eq_integer_iff.1 htext)

theorem ofText_text {t : TypeName} (h : t.Canonical) : ofText t.text = t := by
  obtain ⟨text, rfl⟩ := h
  cases hparse : IntegerType.parse text with
  | ok ty =>
    rw [ofText_eq_integer_iff.2 hparse]
    exact ofText_eq_integer_iff.2 (IntegerType.parse_text (IntegerType.valid_of_parse hparse))
  | error e => rw [text_ofText_of_error hparse]

/-- A text is read to an integer type exactly if it spells the type. The text of what was read
is read to the same again: it is the first text itself if that spells no integer type, and the
stem with the shortest numeral of the width if it does. -/
theorem spelling_canonical :
    (∀ text ty, IntegerType.parse text = .ok ty ↔ IntegerType.Spells text ty) ∧
    (∀ text, ofText (ofText text).text = ofText text) ∧
    (∀ text e, IntegerType.parse text = .error e → (ofText text).text = text) ∧
    ∀ text ty, IntegerType.parse text = .ok ty →
      ∃ width, (ofText text).text = IntegerType.stem ty.signed ++ width ∧
        Decimal.Shortest width.toList ty.bits := by
  refine ⟨fun text ty => ⟨IntegerType.spells_of_parse, IntegerType.parse_of_spells⟩,
    fun text => ofText_text ⟨text, rfl⟩, fun text e => text_ofText_of_error, ?_⟩
  intro text ty h
  refine ⟨Decimal.ofNat ty.bits, ?_, ?_⟩
  · rw [ofText_eq_integer_iff.2 h]
    rfl
  · rw [Decimal.ofNat, String.toList_ofList]
    exact Decimal.shortest_natChars ty.bits

/-- Zeros in front are no part of a width. A width of more than sixteen bits is refused, though
its lower sixteen are those of 8. -/
theorem spelling_canonical_padded :
    IntegerType.Spells "uint+00000000000000000016" ⟨false, 16⟩ ∧
    (IntegerType.parse "int65544" = .error (.notIntegerType "int65544") ∧
      (ofText "int65544").text = "int65544") ∧
    ofText (ofText "uint+00000000000000000016").text = ofText "uint16" := by
  have hwide : IntegerType.parse "int65544" = .error (.notIntegerType "int65544") := rfl
  have hpadded : IntegerType.parse "uint+00000000000000000016" = .ok ⟨false, 16⟩ := rfl
  obtain ⟨hspells, hstable, hkept, -⟩ := spelling_canonical
  exact ⟨(hspells _ _).1 hpadded, ⟨hwide, hkept _ _ hwide⟩, hstable _⟩

end TypeName

end ContractTrace
