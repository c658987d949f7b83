import BlockWorkbench.Proofs.Script.Registration

/-!
The tokens of a registration, read as a statement. It is a call with one argument, a dictionary
with the name of the module, its inputs and its handler.
-/

namespace BlockWorkbench.Script

/-- Tokens with which no expression goes on: the marks behind an item or a statement. -/
inductive Closes : List Token → Prop
  | comma (rest : List Token) : Closes (.op "," :: rest)
  | colon (rest : List Token) : Closes (.op ":" :: rest)
  | parenthesis (rest : List Token) : Closes (.op ")" :: rest)
  | bracket (rest : List Token) : Closes (.op "]" :: rest)
  | brace (rest : List Token) : Closes (.op "\x7d" :: rest)
  | newline (rest : List Token) : Closes (.newline :: rest)

/-- An expression that is an atom with what trails it. -/
theorem parseExpr_of_trailers {fuel : Nat} {t : Token} {ts r rest : List Token} {a e : Expr}
    (hatom : parseAtom fuel (t :: ts) = .ok (a, r)) (htrail : parseTrailers fuel a r = .ok (e, rest))
    (ht : t ≠ .keyword "not" ∧ t ≠ .op "+" ∧ t ≠ .op "-") (hrest : Closes rest) :
    parseExpr (fuel + 9) .conditional (t :: ts) = .ok (e, rest) := by
  have hpower : parseExpr (fuel + 1) .power (t :: ts) = .ok (e, rest) := by
    simp only [parseExpr, hatom, htrail, ok_bind]
    cases hrest <;> rfl
  have hsign : parseExpr (fuel + 2) .sign (t :: ts) = .ok (e, rest) := by
    rw [parseExpr]
    · exact hpower
    · simp_all
    · simp_all
  have hproduct : parseExpr (fuel + 3) .product (t :: ts) = .ok (e, rest) := by
    rw [parseExpr, hsign]
    cases hrest <;> rfl
  have hsum : parseExpr (fuel + 4) .sum (t :: ts) = .ok (e, rest) := by
    rw [parseExpr, hproduct]
    cases hrest <;> rfl
  have hcomparison : parseExpr (fuel + 5) .comparison (t :: ts) = .ok (e, rest) := by
    rw [parseExpr, hsum]
    cases hrest <;> rfl
  have hnegation : parseExpr (fuel + 6) .negation (t :: ts) = .ok (e, rest) := by
    rw [parseExpr]
    · exact hcomparison
    · simp_all
  have hboth : parseExpr (fuel + 7) .both (t :: ts) = .ok (e, rest) := by
    rw [parseExpr, hnegation]
    cases hrest <;> rfl
  have heither : parseExpr (fuel + 8) .either (t :: ts) = .ok (e, rest) := by
    rw [parseExpr, hboth]
    cases hrest <;> rfl
  rw [parseExpr, heither]
  cases hrest <;> rfl

theorem parseTrailers_of_closes (fuel : Nat) (e : Expr) {rest : List Token} (h : Closes rest) :
    parseTrailers (fuel + 1) e rest = .ok (e, rest) := by
  cases h <;> simp [parseTrailers]

/-- A string by itself. -/
theorem parseExpr_str {fuel : Nat} (hfuel : 10 ≤ fuel) (t : Points) {rest : List Token}
    (h : Closes rest) : parseExpr fuel .conditional (.str t :: rest) = .ok (.str t, rest) := by
  obtain ⟨fuel, rfl⟩ : ∃ f, fuel = f + 1 + 9 := ⟨fuel - 10, by omega⟩
  have hatom : parseAtom (fuel + 1) (.str t :: rest) = .ok (.str t, rest) := by
    cases h <;> simp [parseAtom, adjacentStrings]
  exact parseExpr_of_trailers hatom (parseTrailers_of_closes fuel _ h) (by simp) h

theorem parseExpr_dict {fuel : Nat} {ts rest : List Token} {entries : List (Expr × Expr)}
    (hentries : parseEntries (fuel + 1) ts = .ok (entries, rest)) (h : Closes rest) :
    parseExpr (fuel + 11) .conditional (.op "\x7b" :: ts) = .ok (.dict entries, rest) := by
  have hatom : parseAtom (fuel + 2) (.op "\x7b" :: ts) = .ok (.dict entries, rest) := by
    simp [parseAtom, hentries]
  exact parseExpr_of_trailers hatom (parseTrailers_of_closes _ _ h) (by simp) h

theorem parseExpr_list {fuel : Nat} {ts rest : List Token} {items : List Expr}
    (hitems : parseItems (fuel + 1) "]" ts = .ok (items, rest)) (h : Closes rest) :
    parseExpr (fuel + 11) .conditional (.op "[" :: ts) = .ok (.list items, rest) := by
  have hatom : parseAtom (fuel + 2) (.op "[" :: ts) = .ok (.list items, rest) := by
    simp [parseAtom, hitems]
  exact parseExpr_of_trailers hatom (parseTrailers_of_closes _ _ h) (by simp) h

/-- An entry whose value is the last one. -/
theorem parseEntries_last {fuel : Nat} (hfuel : 10 ≤ fuel) (key : Points) {ts rest : List Token}
    {value : Expr} (hvalue : parseExpr fuel .conditional ts = .ok (value, .op "\x7d" :: rest)) :
    parseEntries (fuel + 1) (.str key :: .op ":" :: ts) = .ok ([(.str key, value)], rest) := by
  rw [parseEntries]
  · simp [parseExpr_str hfuel key (.colon ts), expectOp, hvalue]
  · simp

/-- An entry before others. -/
theorem parseEntries_cons {fuel : Nat} (hfuel : 10 ≤ fuel) (key : Points)
    {ts us rest : List Token} {value : Expr} {entries : List (Expr × Expr)}
    (hvalue : parseExpr fuel .conditional ts = .ok (value, .op "," :: us))
    (hmore : parseEntries fuel us = .ok (entries, rest)) :
    parseEntries (fuel + 1) (.str key :: .op ":" :: ts) =
      .ok ((.str key, value) :: entries, rest) := by
  rw [parseEntries]
  · simp [parseExpr_str hfuel key (.colon ts), expectOp, hvalue, hmore]
  · simp

/-- The expression of one input of a registration. -/
def inputExpr : InputSource → Expr
  | .block => .dict [(.str (written "kind"), .str (written "source"))]
  | .module kind name => .dict [(.str (written "kind"), .str (written kind)),
      (.str (written "name"), .str (written name))]

theorem parseExpr_input {fuel : Nat} (hfuel : 30 ≤ fuel) (source : InputSource)
    {rest : List Token} (h : Closes rest) :
    parseExpr fuel .conditional (inputTokens source ++ rest) = .ok (inputExpr source, rest) := by
  obtain ⟨fuel, rfl⟩ : ∃ f, fuel = f + 11 := ⟨fuel - 11, by omega⟩
  cases source with
  | block =>
      exact parseExpr_dict (parseEntries_last (by omega) _
        (parseExpr_str (by omega) _ (.brace rest))) h
  | module kind name =>
      obtain ⟨fuel, rfl⟩ : ∃ f, fuel = f + 1 := ⟨fuel - 1, by omega⟩
      exact parseExpr_dict (parseEntries_cons (by omega) _
        (parseExpr_str (by omega) _ (.comma _))
        (parseEntries_last (by omega) _ (parseExpr_str (by omega) _ (.brace rest)))) h

theorem expectOp_inputTokens (source : InputSource) (rest : List Token) :
    ∃ stop, expectOp "]" (inputTokens source ++ rest) = .error stop := by
  cases source <;> exact ⟨_, rfl⟩

theorem parseItems_inputs {fuel : Nat} {sources : List InputSource}
    (hfuel : sources.length + 31 ≤ fuel) (rest : List Token) :
    parseItems fuel "]" (inputsTokens sources ++ rest) = .ok (sources.map inputExpr, rest) := by
  induction sources generalizing fuel with
  | nil =>
      obtain ⟨fuel, rfl⟩ : ∃ f, fuel = f + 1 := ⟨fuel - 1, by omega⟩
      simp [parseItems, inputsTokens, expectOp]
  | cons source sources ih =>
      obtain ⟨fuel, rfl⟩ : ∃ f, fuel = f + 1 := ⟨fuel - 1, by omega⟩
      rw [List.length_cons] at hfuel
      cases sources with
      | nil =>
          have hinput := parseExpr_input (show 30 ≤ fuel by omega) source (.bracket rest)
          obtain ⟨stop, hstop⟩ := expectOp_inputTokens source (.op "]" :: rest)
          simp [parseItems, inputsTokens, hstop, hinput]
      | cons next sources =>
          have hinput := parseExpr_input (show 30 ≤ fuel by omega) source
            (.comma (inputsTokens (next :: sources) ++ rest))
          obtain ⟨stop, hstop⟩ := expectOp_inputTokens source
            (.op "," :: (inputsTokens (next :: sources) ++ rest))
          simp [parseItems, inputsTokens, hstop, hinput,
            ih (show (next :: sources).length + 31 ≤ fuel by omega)]

/-- A call with one argument. -/
theorem parseExpr_call {fuel : Nat} {f : String} (hf : f ≠ constantName) {t : Token}
    {ts rest : List Token} {e : Expr}
    (hargument : parseExpr fuel .conditional (t :: ts) = .ok (e, .op ")" :: rest))
    (ht : ∃ stop, expectOp ")" (t :: ts) = .error stop) (h : Closes rest) :
    parseExpr (fuel + 11) .conditional (.name f :: .op "(" :: t :: ts) =
      .ok (.call (.name f) [e], rest) := by
  obtain ⟨stop, hstop⟩ := ht
  have hitems : parseItems (fuel + 1) ")" (t :: ts) = .ok ([e], rest) := by
    simp [parseItems, hstop, hargument]
  have htrail : parseTrailers (fuel + 2) (.name f) (.op "(" :: t :: ts) =
      .ok (.call (.name f) [e], rest) := by
    rw [parseTrailers, hitems]
    exact parseTrailers_of_closes _ _ h
  exact parseExpr_of_trailers (by simp [parseAtom, Expr.ofName, hf]) htrail (by simp) h

/-- The call that a registration is. -/
def registrationCall (m : Module) (sources : List InputSource) : Expr :=
  .call (.name m.kind.registerFunction) [.dict [(.str (written "name"), .str (written m.name)),
    (.str (written "inputs"), .list (sources.map inputExpr)),
    (.str (written "handler"), .str (written m.name))]]

theorem parseExpr_registration {fuel : Nat} (m : Module) (sources : List InputSource)
    (hfuel : sources.length + 70 ≤ fuel) {rest : List Token} (h : Closes rest) :
    parseExpr fuel .conditional (registrationTokens m sources ++ rest) =
      .ok (registrationCall m sources, rest) := by
  obtain ⟨fuel, rfl⟩ : ∃ f, fuel = f + 24 := ⟨fuel - 24, by omega⟩
  have hhandler := parseEntries_last (show 10 ≤ fuel by omega) (written "handler")
    (parseExpr_str (by omega) (written m.name) (.brace (.op ")" :: rest)))
  have hroom : sources.length + 31 ≤ fuel - 10 + 1 := by omega
  have hitems := parseItems_inputs hroom
    (.op "," :: .str (written "handler") :: .op ":" :: .str (written m.name) :: .op "\x7d" ::
      .op ")" :: rest)
  have hlist := parseExpr_list hitems (.comma _)
  rw [show fuel - 10 + 11 = fuel + 1 by omega] at hlist
  have hinputs := parseEntries_cons (by omega) (written "inputs") hlist hhandler
  have hentries := parseEntries_cons (by omega) (written "name")
    (parseExpr_str (by omega) (written m.name) (.comma _)) hinputs
  have hdict := parseExpr_dict hentries (.parenthesis rest)
  have hfunction : m.kind.registerFunction ≠ constantName := by
    cases m.kind <;> simp [ModuleKind.registerFunction, constantName]
  have hcall := parseExpr_call (t := .op "\x7b") hfunction hdict (by simp [expectOp]) h
  simpa [registrationTokens, registrationCall] using hcall

theorem parseStmt_registration {exprFuel : Nat} (fuel : Nat) (m : Module)
    (sources : List InputSource) (hfuel : sources.length + 72 ≤ exprFuel) (rest : List Token) :
    parseStmt exprFuel (fuel + 1) (registrationTokens m sources ++ .newline :: rest) =
      .ok ([.expr (registrationCall m sources)], rest) := by
  obtain ⟨exprFuel, rfl⟩ : ∃ f, exprFuel = f + 1 := ⟨exprFuel - 1, by omega⟩
  have hexpr := parseExpr_registration m sources (show sources.length + 70 ≤ exprFuel by omega)
    (.newline rest)
  have hexprs : parseExprs (exprFuel + 1) (registrationTokens m sources ++ .newline :: rest) =
      .ok (registrationCall m sources, .newline :: rest) := by
    rw [parseExprs, hexpr]
    rfl
  have hstmt : parseExprStmt (exprFuel + 1) (registrationTokens m sources ++ .newline :: rest) =
      .ok (.expr (registrationCall m sources), .newline :: rest) := by
    rw [parseExprStmt, hexprs]
    rfl
  have hsmall : parseSmall (exprFuel + 1) (registrationTokens m sources ++ .newline :: rest) =
      .ok (.expr (registrationCall m sources), .newline :: rest) := hstmt
  have hline : parseLine (exprFuel + 1) (exprFuel + 1)
      (registrationTokens m sources ++ .newline :: rest) =
        .ok ([.expr (registrationCall m sources)], rest) := by
    rw [parseLine, hsmall]
    rfl
  exact hline

end BlockWorkbench.Script
