import ContractTrace.Json.Reader
import ContractTrace.Proofs.Tokens

/-! Reading what was written. The machine that reads tokens delivers a tree exactly where its
tokens end, as long as containers do not nest too deep, so the compact text of a tree is read
back to the tree. -/

namespace ContractTrace.Json

/-! ### Single tokens -/

/-- Where a value may start, every token but a closing bracket starts one. -/
theorem step_value {token : Token} (h : token ≠ .arrayClose) {expected : Expectation}
    (he : expected = .value ∨ expected = .firstItem) (frames : List Frame) :
    step token expected frames = beginValue token frames := by
  rcases he with rfl | rfl
  · rfl
  · cases token with
    | arrayClose => exact absurd rfl h
    | _ => rfl

theorem build_of_step {token : Token} {expected : Expectation} {frames : List Frame}
    {reading : Reading} (h : step token expected frames = some reading) (rest : List Token) :
    build (token :: rest) (.within expected frames) = build rest reading := by
  rw [build, h]

theorem build_scalar (j : Json) {expected : Expectation} {frames : List Frame}
    {reading : Reading} (he : expected = .value ∨ expected = .firstItem)
    (h : deliver j frames = some reading) (rest : List Token) :
    build (.scalar j :: rest) (.within expected frames) = build rest reading := by
  have hstep : step (.scalar j) expected frames = some reading := by
    rw [step_value (by simp) he]
    exact h
  exact build_of_step hstep rest

/-- A container that is not nested too deep is delivered as it is. -/
theorem close_eq {outer : List Frame} (h : outer.length + 1 < depthLimit) (j : Json) :
    close j outer = deliver j outer := by
  rw [close, if_pos h]

/-! ### Trees -/

mutual

/-- The tokens of a tree deliver the tree. -/
theorem build_tree : ∀ (j : Json) {expected : Expectation} {frames : List Frame}
    {reading : Reading}, expected = .value ∨ expected = .firstItem →
    frames.length + j.depth < depthLimit → deliver j frames = some reading →
    ∀ rest, build (treeTokens j ++ rest) (.within expected frames) = build rest reading
  | .array [], expected, frames, reading, he, hd, h, rest => by
    have hopen : step .arrayOpen expected frames =
        some (.within .firstItem (.array [] :: frames)) :=
      step_value (by simp) he frames
    have hclose : step .arrayClose .firstItem (.array [] :: frames) = some reading :=
      (close_eq (by simpa [depth, depthAll] using hd) _).trans h
    exact (build_of_step hopen _).trans (build_of_step hclose rest)
  | .array (j :: js), expected, frames, reading, he, hd, h, rest => by
    have hopen : step .arrayOpen expected frames =
        some (.within .firstItem (.array [] :: frames)) :=
      step_value (by simp) he frames
    simp only [depth, depthAll] at hd
    rw [treeTokens, itemTokens, comma, if_pos rfl, List.nil_append, List.cons_append,
      build_of_step hopen, List.append_assoc,
      build_tree j (.inr rfl) (by simp only [List.length_cons]; omega) rfl]
    exact build_items js (by omega)
      (show deliver (.array ([j].reverse ++ js)) frames = _ from h) rest
  | .object [], expected, frames, reading, he, hd, h, rest => by
    have hopen : step .objectOpen expected frames =
        some (.within .firstKey (.object [] :: frames)) :=
      step_value (by simp) he frames
    have hclose : step .objectClose .firstKey (.object [] :: frames) = some reading :=
      (close_eq (by simpa [depth, depthMembers] using hd) _).trans h
    exact (build_of_step hopen _).trans (build_of_step hclose rest)
  | .object ((key, j) :: ms), expected, frames, reading, he, hd, h, rest => by
    have hopen : step .objectOpen expected frames =
        some (.within .firstKey (.object [] :: frames)) :=
      step_value (by simp) he frames
    have hkey : step (.scalar (.string key)) .firstKey (.object [] :: frames) =
        some (.within .colon (.member [] key :: frames)) := rfl
    simp only [depth, depthMembers] at hd
    rw [treeTokens, memberTokens, comma, if_pos rfl, List.nil_append, List.cons_append,
      build_of_step hopen, List.cons_append, build_of_step hkey, List.cons_append,
      build_of_step rfl, List.append_assoc,
      build_tree j (.inl rfl) (by simp only [List.length_cons]; omega) rfl]
    exact build_members ms (by omega)
      (show deliver (.object ([(key, j)].reverse ++ ms)) frames = _ from h) rest
  | .null, _, _, _, he, _, h, rest | .bool _, _, _, _, he, _, h, rest
  | .integer _, _, _, _, he, _, h, rest | .real _, _, _, _, he, _, h, rest
  | .string _, _, _, _, he, _, h, rest | .invalid, _, _, _, he, _, h, rest
  | .cut, _, _, _, he, _, h, rest => build_scalar _ he h rest

/-- The tokens of further items close an array. -/
theorem build_items : ∀ (items : List Json) {done : List Json} {outer : List Frame}
    {reading : Reading}, outer.length + (depthAll items + 1) < depthLimit →
    deliver (.array (done.reverse ++ items)) outer = some reading →
    ∀ rest, build (itemTokens false items ++ rest) (.within .separator (.array done :: outer)) =
      build rest reading
  | [], done, outer, reading, hd, h, rest => by
    have hclose : step .arrayClose .separator (.array done :: outer) = some reading := by
      rw [List.append_nil] at h
      exact (close_eq (by simpa [depthAll] using hd) _).trans h
    exact build_of_step hclose rest
  | j :: js, done, outer, reading, hd, h, rest => by
    have hcomma : step .comma .separator (.array done :: outer) =
        some (.within .value (.array done :: outer)) := rfl
    simp only [depthAll] at hd
    rw [itemTokens, comma, if_neg (by simp), List.append_assoc, List.append_assoc,
      List.singleton_append, build_of_step hcomma,
      build_tree j (.inl rfl) (by simp only [List.length_cons]; omega) rfl]
    exact build_items js (by omega) (by simpa using h) rest

/-- The tokens of further members close an object. -/
theorem build_members : ∀ (members : List (String × Json)) {done : List (String × Json)}
    {outer : List Frame} {reading : Reading},
    outer.length + (depthMembers members + 1) < depthLimit →
    deliver (.object (done.reverse ++ members)) outer = some reading →
    ∀ rest, build (memberTokens false members ++ rest)
      (.within .separator (.object done :: outer)) = build rest reading
  | [], done, outer, reading, hd, h, rest => by
    have hclose : step .objectClose .separator (.object done :: outer) = some reading := by
      rw [List.append_nil] at h
      exact (close_eq (by simpa [depthMembers] using hd) _).trans h
    exact build_of_step hclose rest
  | (key, j) :: ms, done, outer, reading, hd, h, rest => by
    have hcomma : step .comma .separator (.object done :: outer) =
        some (.within .key (.object done :: outer)) := rfl
    have hkey : step (.scalar (.string key)) .key (.object done :: outer) =
        some (.within .colon (.member done key :: outer)) := rfl
    simp only [depthMembers] at hd
    rw [memberTokens, comma, if_neg (by simp), List.append_assoc, List.singleton_append,
      build_of_step hcomma, List.cons_append, build_of_step hkey, List.cons_append,
      build_of_step rfl, List.append_assoc,
      build_tree j (.inl rfl) (by simp only [List.length_cons]; omega) rfl]
    exact build_members ms (by omega) (by simpa using h) rest

end

/-- The compact text of a tree is read back to the tree. -/
theorem parse_compact {j : Json} (hj : j.Plain) (hd : j.depth < depthLimit) :
    parse (compact j) = ⟨j, false⟩ := by
  -- at the outermost level a finished tree is delivered to no frame and completes the reading
  have hbuild : build (treeTokens j ++ []) (.within .value []) = build [] (.complete j) :=
    build_tree j (.inl rfl) (by simpa using hd) rfl []
  rw [List.append_nil] at hbuild
  rw [parse, compact, String.toList_ofList, tokens_compactChars hj, hbuild]
  rfl

end ContractTrace.Json
