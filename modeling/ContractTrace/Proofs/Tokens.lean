import ContractTrace.Json.Writer
import ContractTrace.Proofs.Decimal
import Mathlib.Data.List.TakeWhile
import Mathlib.Tactic.SplitIfs

/-! The tokens of written JSON. A tree without reals and faults has one sequence of tokens,
and both the compact and the indented text of the tree are read to it, whatever follows. -/

namespace ContractTrace.Json

/-! ### Trees and their tokens -/

mutual

/-- Nothing but what a written text stands for: no reals, no faults, and integers of 64 bits. -/
def Plain : Json → Prop
  | .integer n => isShort n = true
  | .array items => AllPlain items
  | .object members => MembersPlain members
  | .real _ => False
  | .invalid => False
  | .cut => False
  | _ => True

def AllPlain : List Json → Prop
  | [] => True
  | j :: js => j.Plain ∧ AllPlain js

def MembersPlain : List (String × Json) → Prop
  | [] => True
  | (_, j) :: ms => j.Plain ∧ MembersPlain ms

end

/-- A comma in front of all parts of a container but the first. -/
def comma (first : Bool) : List Token := if first then [] else [.comma]

mutual

/-- The tokens of a tree. -/
def treeTokens : Json → List Token
  | .array items => .arrayOpen :: itemTokens true items
  | .object members => .objectOpen :: memberTokens true members
  | j => [.scalar j]

/-- The tokens of an array's items and of its closing bracket. -/
def itemTokens (first : Bool) : List Json → List Token
  | [] => [.arrayClose]
  | j :: js => comma first ++ (treeTokens j ++ itemTokens false js)

/-- The tokens of an object's members and of its closing brace. -/
def memberTokens (first : Bool) : List (String × Json) → List Token
  | [] => [.objectClose]
  | (key, j) :: ms =>
    comma first ++ (.scalar (.string key) :: .colon :: (treeTokens j ++ memberTokens false ms))

end

/-! ### Marks and blanks -/

theorem tokensFrom_mark {c : Char} {token : Token} (h : mark? c = some token) (cs : List Char) :
    tokensFrom .between (c :: cs) = token :: tokensFrom .between cs := by
  have hspace : isSpace c = false := by
    unfold mark? at h
    split at h
    iterate 6 rfl
    cases h
  simp [tokensFrom, start, hspace, h]

theorem tokensFrom_space {c : Char} (h : isSpace c = true) (cs : List Char) :
    tokensFrom .between (c :: cs) = tokensFrom .between cs := by
  simp [tokensFrom, start, h]

theorem tokensFrom_newLine (level : Nat) (cs : List Char) :
    tokensFrom .between (newLine level ++ cs) = tokensFrom .between cs := by
  have hblanks : ∀ n,
      tokensFrom .between (List.replicate n ' ' ++ cs) = tokensFrom .between cs := by
    intro n
    induction n with
    | zero => rfl
    | succ n ih =>
      rw [List.replicate_succ, List.cons_append, tokensFrom_space rfl, ih]
  rw [newLine, List.cons_append, tokensFrom_space rfl, hblanks]

/-! ### Words -/

/-- What follows a word does not belong to it. -/
def Separated (cs : List Char) : Prop := ∀ c ∈ cs.head?, isWordChar c = false

theorem separated_nil : Separated [] := by
  intro c h
  cases h

theorem separated_cons {c : Char} (h : isWordChar c = false) (cs : List Char) :
    Separated (c :: cs) := by
  rintro _ ⟨⟩
  exact h

/-- A word goes on as long as its characters do. -/
theorem tokensFrom_word_append {cs : List Char} (hcs : ∀ c ∈ cs, isWordChar c = true)
    (w rest : List Char) :
    tokensFrom (.word w) (cs ++ rest) = tokensFrom (.word (cs.reverse ++ w)) rest := by
  induction cs generalizing w with
  | nil => rfl
  | cons c cs ih =>
    rw [List.forall_mem_cons] at hcs
    rw [List.cons_append, tokensFrom, if_pos hcs.1, ih hcs.2, List.reverse_cons, List.append_assoc]
    rfl

theorem tokensFrom_word_end (w : List Char) {rest : List Char} (h : Separated rest) :
    tokensFrom (.word w) rest = wordToken w.reverse :: tokensFrom .between rest := by
  cases rest with
  | nil => simp [tokensFrom]
  | cons c cs =>
    simp only [tokensFrom, h c rfl, Bool.false_eq_true, if_false]
    rcases start c with ⟨tokens, _ | mode⟩ <;> rfl

theorem start_of_startsWord {c : Char} (h : startsWord c = true) :
    start c = ([], some (.word [c])) := by
  have hspace : isSpace c = false := by
    rw [Bool.eq_false_iff]
    intro hs
    simp only [isSpace, Bool.or_eq_true, beq_iff_eq] at hs
    rcases hs with ((rfl | rfl) | rfl) | rfl <;> exact absurd h (by decide)
  have hmark : mark? c = none := by
    unfold mark?
    split
    iterate 6 exact absurd h (by decide)
    rfl
  have hquote : (c == '"') = false := by
    rw [beq_eq_false_iff_ne]
    rintro rfl
    exact absurd h (by decide)
  simp [start, hspace, hmark, hquote, h]

/-- A whole word is one token. -/
theorem tokensFrom_word {c : Char} (hc : startsWord c = true) {cs rest : List Char}
    (hcs : ∀ d ∈ cs, isWordChar d = true) (h : Separated rest) :
    tokensFrom .between (c :: (cs ++ rest)) =
      wordToken (c :: cs) :: tokensFrom .between rest := by
  simp only [tokensFrom, start_of_startsWord hc, List.nil_append]
  rw [tokensFrom_word_append hcs, tokensFrom_word_end _ h, List.reverse_append,
    List.reverse_reverse]
  rfl

/-! ### Numbers -/

theorem magnitude?_natChars (negative : Bool) (n : Nat) :
    magnitude? negative (Decimal.natChars n) =
      some ⟨negative, Decimal.natChars n, none, none⟩ := by
  have htake : (Decimal.natChars n).takeWhile Char.isDigit = Decimal.natChars n :=
    List.takeWhile_eq_self_iff.2 fun c hc => Decimal.isDigit_of_mem_natChars hc
  have hdrop : (Decimal.natChars n).dropWhile Char.isDigit = [] :=
    List.dropWhile_eq_nil_iff.2 fun c hc => Decimal.isDigit_of_mem_natChars hc
  obtain ⟨c, cs, hn, -, hzero⟩ := Decimal.natChars_eq_cons n
  simp only [magnitude?, htake, hdrop]
  rw [hn]
  split
  next h => cases h
  next d ds h =>
    cases h
    cases hzero rfl
  next => rfl

theorem numberLiteral?_intChars (n : Int) :
    numberLiteral? (Decimal.intChars n) =
      some ⟨decide (n < 0), Decimal.natChars n.natAbs, none, none⟩ := by
  cases n with
  | ofNat n =>
    obtain ⟨c, cs, hn, hdigit, -⟩ := Decimal.natChars_eq_cons n
    rw [Decimal.intChars, hn, numberLiteral?, ← hn, magnitude?_natChars]
    · rfl
    · rintro _ ⟨⟩
      exact absurd hdigit (by decide)
  | negSucc n =>
    rw [Decimal.intChars, numberLiteral?, magnitude?_natChars,
      decide_eq_true (Int.negSucc_lt_zero n), Int.natAbs_negSucc]

theorem ofLiteral_intChars {n : Int} (h : isShort n = true) (text : List Char) :
    ofLiteral text ⟨decide (n < 0), Decimal.natChars n.natAbs, none, none⟩ = .integer n := by
  have hn : (if n < 0 then -(n.natAbs : Int) else n.natAbs) = n := by
    split_ifs <;> omega
  have hzero : (decide (n < 0) && n.natAbs == 0) = false := by
    rw [Bool.and_eq_false_imp, decide_eq_true_eq]
    intro hneg
    rw [beq_eq_false_iff_ne]
    omega
  simp only [ofLiteral, Decimal.ofDigitChars_natChars, decide_eq_true_eq, hn, h, hzero]
  rfl

/-- Words of letters are no number. -/
theorem wordToken_intChars {n : Int} (h : isShort n = true) :
    wordToken (Decimal.intChars n) = .scalar (.integer n) := by
  have hliteral := numberLiteral?_intChars n
  have hword : ∀ w, numberLiteral? w = none → Decimal.intChars n ≠ w := by
    rintro w hw rfl
    rw [hliteral] at hw
    cases hw
  rw [wordToken, if_neg (hword _ rfl), if_neg (hword _ rfl), if_neg (hword _ rfl), hliteral]
  exact congrArg Token.scalar (ofLiteral_intChars h _)

/-! ### Strings -/

/-- The pieces stand for the characters, whatever pieces follow. -/
def StandFor (pieces : List Piece) (cs : List Char) : Prop :=
  ∀ more, assemble (pieces ++ more) = (assemble more).map (cs ++ ·)

theorem standFor_nil : StandFor [] [] := by
  intro more
  simp

theorem standFor_char (c : Char) : StandFor [.char c] [c] := fun _ => rfl

theorem standFor_unit {code : Nat} (h : code < 0xD800) :
    StandFor [.unit code] [Char.ofNat code] := by
  have hhigh : isHighSurrogate code = false := by simp [isHighSurrogate]; omega
  have hlow : isLowSurrogate code = false := by simp [isLowSurrogate]; omega
  intro more
  rcases more with _ | ⟨_ | _, more⟩ <;> simp [assemble, hhigh, hlow]

theorem StandFor.append {ps qs : List Piece} {cs ds : List Char} (hp : StandFor ps cs)
    (hq : StandFor qs ds) : StandFor (ps ++ qs) (cs ++ ds) := by
  intro more
  rw [List.append_assoc, hp, hq, Option.map_map]
  simp [Function.comp_def]

theorem hexDigit?_hexChar {d : Nat} (h : d < 16) : hexDigit? (hexChar d) = some d := by
  have hall : ∀ d : Fin 16, hexDigit? (hexChar d) = some d.val := by decide
  exact hall ⟨d, h⟩

/-- A numeric escape is read to its code. -/
theorem tokensFrom_code {n : Nat} (h : n < 0x20) (pieces : List Piece) (rest : List Char) :
    tokensFrom (.text pieces)
        (['\\', 'u', '0', '0', hexChar (n / 16), hexChar (n % 16)] ++ rest) =
      tokensFrom (.text (.unit n :: pieces)) rest := by
  have hone := hexDigit?_hexChar (show n / 16 < 16 by omega)
  have htwo := hexDigit?_hexChar (show n % 16 < 16 by omega)
  have hzero : hexDigit? '0' = some 0 := rfl
  have hn : n / 16 * 16 + n % 16 = n := by omega
  simp [tokensFrom, hone, htwo, hzero, hn]

/-- What is written for a character is read to one piece, which stands for it. -/
theorem tokensFrom_escape (c : Char) : ∃ p, StandFor [p] [c] ∧ ∀ pieces rest,
    tokensFrom (.text pieces) (escape c ++ rest) = tokensFrom (.text (p :: pieces)) rest := by
  unfold escape
  split_ifs with h1 h2 h3 h4 h5 h6 h7 h8
  iterate 7 exact ⟨.char c, standFor_char c, fun _ _ => by subst c; rfl⟩
  · refine ⟨.unit c.toNat, ?_, fun _ _ => tokensFrom_code h8 _ _⟩
    have hunit := standFor_unit (show c.toNat < 0xD800 by omega)
    rwa [Char.ofNat_toNat] at hunit
  · exact ⟨.char c, standFor_char c, fun _ _ => by simp [tokensFrom, h1, h2, h8]⟩

theorem tokensFrom_text (cs : List Char) (pieces : List Piece) {done : List Char}
    (h : StandFor pieces.reverse done) (rest : List Char) :
    tokensFrom (.text pieces) (cs.flatMap escape ++ '"' :: rest) =
      .scalar (.string (String.ofList (done ++ cs))) :: tokensFrom .between rest := by
  -- the pieces are kept in reverse, and `done` is what they stand for so far
  induction cs generalizing pieces done with
  | nil =>
    have hdone := h []
    simp only [List.append_nil, assemble, Option.map_some] at hdone
    simp [tokensFrom, textToken, hdone]
  | cons c cs ih =>
    obtain ⟨p, hp, hread⟩ := tokensFrom_escape c
    have hpieces : StandFor (p :: pieces).reverse (done ++ [c]) := by
      rw [List.reverse_cons]
      exact h.append hp
    rw [List.flatMap_cons, List.append_assoc, hread, ih _ hpieces, List.append_assoc]
    rfl

theorem tokensFrom_quote (s : String) (rest : List Char) :
    tokensFrom .between (quote s ++ rest) =
      .scalar (.string s) :: tokensFrom .between rest := by
  have hstart : tokensFrom .between (quote s ++ rest) =
      tokensFrom (.text []) (s.toList.flatMap escape ++ '"' :: rest) := by
    simp [quote, tokensFrom, start, isSpace, mark?]
  rw [hstart, tokensFrom_text s.toList [] standFor_nil, List.nil_append, String.ofList_toList]

/-! ### Scalars -/

theorem isWordChar_of_isDigit {c : Char} (h : c.isDigit = true) : isWordChar c = true := by
  simp [isWordChar, Char.isAlphanum, h]

theorem tokensFrom_integer {n : Int} (hn : isShort n = true) {rest : List Char}
    (h : Separated rest) :
    tokensFrom .between (Decimal.intChars n ++ rest) =
      .scalar (.integer n) :: tokensFrom .between rest := by
  have hdigits : ∀ m, ∀ c ∈ Decimal.natChars m, isWordChar c = true := fun m c hc =>
    isWordChar_of_isDigit (Decimal.isDigit_of_mem_natChars hc)
  rw [← wordToken_intChars hn]
  cases n with
  | ofNat m =>
    have hall := hdigits m
    obtain ⟨c, cs, hm, hdigit, -⟩ := Decimal.natChars_eq_cons m
    rw [Decimal.intChars]
    rw [hm] at hall ⊢
    exact tokensFrom_word (by simp [startsWord, hdigit]) (fun d hd => hall d (.tail _ hd)) h
  | negSucc m => exact tokensFrom_word rfl (hdigits (m + 1)) h

/-- A scalar is one token. -/
theorem tokensFrom_scalar {j : Json} (hj : j.Plain) (htree : j.treeTokens = [.scalar j])
    {rest : List Char} (h : Separated rest) :
    tokensFrom .between (scalarChars j ++ rest) = .scalar j :: tokensFrom .between rest := by
  cases j with
  | null => exact tokensFrom_word (c := 'n') rfl (List.all_eq_true.1 rfl) h
  | bool b =>
    cases b with
    | true => exact tokensFrom_word (c := 't') rfl (List.all_eq_true.1 rfl) h
    | false => exact tokensFrom_word (c := 'f') rfl (List.all_eq_true.1 rfl) h
  | integer n => exact tokensFrom_integer hj h
  | string s => exact tokensFrom_quote s rest
  | real literal => exact hj.elim
  | invalid => exact hj.elim
  | cut => exact hj.elim
  | array items => simp [treeTokens] at htree
  | object members => simp [treeTokens] at htree

/-! ### Compact text -/

theorem tokensFrom_comma (first : Bool) (cs : List Char) :
    tokensFrom .between ((if first then [] else [',']) ++ cs) =
      comma first ++ tokensFrom .between cs := by
  cases first with
  | true => rfl
  | false => exact tokensFrom_mark rfl cs

theorem separated_compactItems (items : List Json) (rest : List Char) :
    Separated (compactItems false items ++ rest) := by
  cases items <;> exact separated_cons rfl _

theorem separated_compactMembers (members : List (String × Json)) (rest : List Char) :
    Separated (compactMembers false members ++ rest) := by
  cases members <;> exact separated_cons rfl _

mutual

theorem tokensFrom_compact : ∀ (j : Json), j.Plain → ∀ {rest : List Char}, Separated rest →
    tokensFrom .between (compactChars j ++ rest) = treeTokens j ++ tokensFrom .between rest
  | .array items, hj, rest, _ => by
    rw [compactChars, List.cons_append, tokensFrom_mark rfl, tokensFrom_compactItems items hj true,
      treeTokens]
    rfl
  | .object members, hj, rest, _ => by
    rw [compactChars, List.cons_append, tokensFrom_mark rfl,
      tokensFrom_compactMembers members hj true, treeTokens]
    rfl
  | .null, hj, _, h | .bool _, hj, _, h | .integer _, hj, _, h | .real _, hj, _, h
  | .string _, hj, _, h | .invalid, hj, _, h | .cut, hj, _, h => tokensFrom_scalar hj rfl h

theorem tokensFrom_compactItems : ∀ (items : List Json), AllPlain items →
    ∀ (first : Bool) (rest : List Char),
    tokensFrom .between (compactItems first items ++ rest) =
      itemTokens first items ++ tokensFrom .between rest
  | [], _, _, rest => tokensFrom_mark rfl rest
  | j :: js, h, first, rest => by
    rw [compactItems, List.append_assoc, List.append_assoc, tokensFrom_comma,
      tokensFrom_compact j h.1 (separated_compactItems js rest),
      tokensFrom_compactItems js h.2 false rest, itemTokens, List.append_assoc, List.append_assoc]

theorem tokensFrom_compactMembers : ∀ (members : List (String × Json)), MembersPlain members →
    ∀ (first : Bool) (rest : List Char),
    tokensFrom .between (compactMembers first members ++ rest) =
      memberTokens first members ++ tokensFrom .between rest
  | [], _, _, rest => tokensFrom_mark rfl rest
  | (key, j) :: ms, h, first, rest => by
    rw [compactMembers, List.append_assoc, List.append_assoc, tokensFrom_comma, tokensFrom_quote,
      List.cons_append, tokensFrom_mark rfl, List.append_assoc,
      tokensFrom_compact j h.1 (separated_compactMembers ms rest),
      tokensFrom_compactMembers ms h.2 false rest, memberTokens, List.append_assoc]
    simp only [List.cons_append, List.append_assoc]

end

/-- The compact text of a tree has the tree's tokens. -/
theorem tokens_compactChars {j : Json} (h : j.Plain) : tokens (compactChars j) = treeTokens j := by
  have hread := tokensFrom_compact j h separated_nil
  rw [List.append_nil] at hread
  rw [tokens, hread]
  exact List.append_nil _

/-! ### Indented text -/

theorem separated_prettyItems (level : Nat) (items : List Json) (rest : List Char) :
    Separated (prettyItems level items ++ rest) := by
  cases items <;> exact separated_cons rfl _

theorem separated_prettyMembers (level : Nat) (members : List (String × Json))
    (rest : List Char) : Separated (prettyMembers level members ++ rest) := by
  rcases members with _ | ⟨⟨_, _⟩, _⟩ <;> exact separated_cons rfl _

mutual

theorem tokensFrom_pretty : ∀ (j : Json), j.Plain → ∀ (level : Nat) {rest : List Char},
    Separated rest →
    tokensFrom .between (prettyChars level j ++ rest) = treeTokens j ++ tokensFrom .between rest
  | .array [], _, _, rest, _ => by
    rw [prettyChars, List.cons_append, tokensFrom_mark rfl]
    exact congrArg _ (tokensFrom_mark rfl rest)
  | .array (j :: js), hj, level, rest, _ => by
    rw [prettyChars, List.cons_append, tokensFrom_mark rfl, List.append_assoc,
      tokensFrom_newLine, List.append_assoc,
      tokensFrom_pretty j hj.1 (level + 1) (separated_prettyItems level js rest),
      tokensFrom_prettyItems js hj.2 level rest, treeTokens, itemTokens, List.cons_append,
      List.append_assoc, List.append_assoc]
    rfl
  | .object [], _, _, rest, _ => by
    rw [prettyChars, List.cons_append, tokensFrom_mark rfl]
    exact congrArg _ (tokensFrom_mark rfl rest)
  | .object ((key, j) :: ms), hj, level, rest, _ => by
    rw [prettyChars, List.cons_append, tokensFrom_mark rfl, List.append_assoc,
      tokensFrom_newLine, List.append_assoc, tokensFrom_quote, List.cons_append,
      tokensFrom_mark rfl, List.cons_append, tokensFrom_space rfl, List.append_assoc,
      tokensFrom_pretty j hj.1 (level + 1) (separated_prettyMembers level ms rest),
      tokensFrom_prettyMembers ms hj.2 level rest, treeTokens, memberTokens]
    simp only [comma, if_true, List.nil_append, List.cons_append, List.append_assoc]
  | .null, hj, _, _, h | .bool _, hj, _, _, h | .integer _, hj, _, _, h | .real _, hj, _, _, h
  | .string _, hj, _, _, h | .invalid, hj, _, _, h | .cut, hj, _, _, h =>
    tokensFrom_scalar hj rfl h

theorem tokensFrom_prettyItems : ∀ (items : List Json), AllPlain items →
    ∀ (level : Nat) (rest : List Char),
    tokensFrom .between (prettyItems level items ++ rest) =
      itemTokens false items ++ tokensFrom .between rest
  | [], _, level, rest => by
    rw [prettyItems, List.append_assoc, tokensFrom_newLine]
    exact tokensFrom_mark rfl rest
  | j :: js, h, level, rest => by
    rw [prettyItems, List.cons_append, tokensFrom_mark rfl, List.append_assoc,
      tokensFrom_newLine, List.append_assoc,
      tokensFrom_pretty j h.1 (level + 1) (separated_prettyItems level js rest),
      tokensFrom_prettyItems js h.2 level rest, itemTokens, List.append_assoc, List.append_assoc]
    rfl

theorem tokensFrom_prettyMembers : ∀ (members : List (String × Json)), MembersPlain members →
    ∀ (level : Nat) (rest : List Char),
    tokensFrom .between (prettyMembers level members ++ rest) =
      memberTokens false members ++ tokensFrom .between rest
  | [], _, level, rest => by
    rw [prettyMembers, List.append_assoc, tokensFrom_newLine]
    exact tokensFrom_mark rfl rest
  | (key, j) :: ms, h, level, rest => by
    rw [prettyMembers, List.cons_append, tokensFrom_mark rfl, List.append_assoc,
      tokensFrom_newLine, List.append_assoc, tokensFrom_quote, List.cons_append,
      tokensFrom_mark rfl, List.cons_append, tokensFrom_space rfl, List.append_assoc,
      tokensFrom_pretty j h.1 (level + 1) (separated_prettyMembers level ms rest),
      tokensFrom_prettyMembers ms h.2 level rest, memberTokens]
    simp only [comma, Bool.false_eq_true, if_false, List.nil_append, List.cons_append,
      List.append_assoc]

end

/-- The indented text of a tree has the tree's tokens, also with a line break behind it. -/
theorem tokens_prettyChars_newLine {j : Json} (h : j.Plain) :
    tokens (prettyChars 0 j ++ ['\n']) = treeTokens j := by
  rw [tokens, tokensFrom_pretty j h 0 (separated_cons rfl []), tokensFrom_space rfl]
  exact List.append_nil _

end ContractTrace.Json
