import BlockWorkbench.Graph.Script
import BlockWorkbench.Proofs.Script.Compiling
import BlockWorkbench.Proofs.Script.Quotation

/-!
The statement that registers a module, read as a script. It is one line of tokens and one call,
whose argument is a dictionary with the name of the module, its inputs and its handler.
-/

namespace BlockWorkbench.Script

open BlockWorkbench.Graph (registrationText)

/-- The tokens of one input of a registration. -/
def inputTokens : InputSource → List Token
  | .block => [.op "\x7b", .str (written "kind"), .op ":", .str (written "source"), .op "\x7d"]
  | .module kind name => [.op "\x7b", .str (written "kind"), .op ":", .str (written kind), .op ",",
      .str (written "name"), .op ":", .str (written name), .op "\x7d"]

/-- The tokens of the inputs and the bracket that closes them. -/
def inputsTokens : List InputSource → List Token
  | [] => [.op "]"]
  | [source] => inputTokens source ++ [.op "]"]
  | source :: rest => inputTokens source ++ .op "," :: inputsTokens rest

/-- The tokens of a registration. -/
def registrationTokens (m : Module) (sources : List InputSource) : List Token :=
  ([.name m.kind.registerFunction, .op "(", .op "\x7b", .str (written "name"), .op ":",
    .str (written m.name), .op ",", .str (written "inputs"), .op ":", .op "["] : List Token) ++
    inputsTokens sources ++ ([.op ",", .str (written "handler"), .op ":", .str (written m.name),
    .op "\x7d", .op ")"] : List Token)

/-- A source that is the block or has the kind and the name of a module. -/
def Named : InputSource → Prop
  | .block => True
  | .module kind name => (kind = "map" ∨ kind = "store") ∧ name ≠ ""

theorem toList_text_block : InputSource.block.toJson.text.toList =
    '\x7b' :: (Json.writeString true "kind" ++ [':', ' ']) ++ Json.writeString true "source" ++
      ['\x7d'] := by
  simp [InputSource.toJson, Json.text, Json.render, Json.write, Json.writeFields,
    Json.Style.lineBreak]

theorem toList_text_module (kind name : String) :
    (InputSource.module kind name).toJson.text.toList =
      '\x7b' :: (Json.writeString true "kind" ++ [':', ' ']) ++ Json.writeString true kind ++
        [',', ' '] ++ (Json.writeString true "name" ++ [':', ' ']) ++ Json.writeString true name ++
        ['\x7d'] := by
  simp [InputSource.toJson, Json.text, Json.render, Json.write, Json.writeFields,
    Json.Style.lineBreak, Json.Style.separator]

namespace Scanner

/-- The brackets and marks between the strings of a registration. -/
def marks : List Char := ['(', ')', '[', ']', '\x7b', '\x7d', ':', ',']

/-- A scanner between the tokens of the first line of a text, which starts at the left edge. The
tokens before it are listed last first. -/
structure Amid (s : Scanner) (brackets : List Char) (ts : List Token) : Prop where
  mode : s.mode = .between
  brackets : s.brackets = brackets
  tokens : s.tokens.map (·.token) = ts
  column : s.column = 0
  blanks : s.blanks = 0
  lines : s.lines = []

/-- A scanner that is between tokens as soon as the next character is no equals sign, with which a
mark would become a longer operator. -/
def Behind (s : Scanner) (brackets : List Char) (ts : List Token) : Prop :=
  ∃ u : Scanner, u.Amid brackets ts ∧ ∀ x, x ≠ '=' → s.step x = u.step x

variable {s u : Scanner} {brackets : List Char} {ts : List Token}

theorem Amid.behind (h : s.Amid brackets ts) : s.Behind brackets ts := ⟨s, h, fun _ _ => rfl⟩

theorem Amid.emit (h : s.Amid brackets ts) (t : Token) : (s.emit [t]).Amid brackets (t :: ts) :=
  ⟨rfl, h.brackets, by simp [Scanner.emit, h.tokens], h.column, h.blanks, h.lines⟩

theorem startsOperator_mark {c x : Char} (hc : c ∈ marks) (hx : x ≠ '=') :
    startsOperator [c, x] = false := by
  simp only [marks, List.mem_cons, List.not_mem_nil, or_false] at hc
  obtain rfl | rfl | rfl | rfl | rfl | rfl | rfl | rfl := hc <;>
    simp [startsOperator, operators, ← String.toList_inj, hx]

theorem step_mark {c : Char} (hc : c ∈ marks) (hs : s.mode = .between) :
    s.step c = { s with mode := .operator [c] } := by
  simp only [marks, List.mem_cons, List.not_mem_nil, or_false] at hc
  obtain rfl | rfl | rfl | rfl | rfl | rfl | rfl | rfl := hc <;>
    simp [step, take, hs, begin, Number.isDigit, isQuote, isWide, Text.isNameStart, startsOperator,
      operators, ← String.toList_inj]

/-- A mark that ends as a token of its own is one as soon as the next character is known. -/
theorem Amid.mark {c : Char} (h : s.Amid brackets ts) (hc : c ∈ marks) {brackets' : List Char}
    (hend : ({ s with mode := .operator [c] } : Scanner).endOperator [c] =
      { s.emit [.op (String.ofList [c])] with brackets := brackets' }) :
    ({ s with mode := .operator [c] } : Scanner).Behind brackets'
      (.op (String.ofList [c]) :: ts) := by
  have hdot : c ≠ '.' := by
    rintro rfl
    simp [marks] at hc
  have hemit := h.emit (.op (String.ofList [c]))
  refine ⟨{ s.emit [.op (String.ofList [c])] with brackets := brackets' },
    ⟨rfl, rfl, hemit.tokens, h.column, h.blanks, h.lines⟩, fun x hx => ?_⟩
  simp [step, take, hdot, startsOperator_mark hc hx, hend, resume, Scanner.emit]

theorem Behind.step {c : Char} (h : s.Behind brackets ts) (hc : c ≠ '=') {brackets' : List Char}
    {ts' : List Token} (hstep : ∀ u : Scanner, u.Amid brackets ts → (u.step c).Behind brackets' ts') :
    (s.step c).Behind brackets' ts' := by
  obtain ⟨u, hu, hsame⟩ := h
  rw [hsame c hc]
  exact hstep u hu

theorem Amid.opening {c : Char} (h : s.Amid brackets ts) (hc : c = '(' ∨ c = '[' ∨ c = '\x7b')
    (hlimit : brackets.length < bracketLimit) :
    ({ s with mode := .operator [c] } : Scanner).Behind (c :: brackets)
      (.op (String.ofList [c]) :: ts) := by
  have hopens : (c == '(' || c == '[' || c == '\x7b') = true := by
    obtain rfl | rfl | rfl := hc <;> rfl
  refine h.mark (by obtain rfl | rfl | rfl := hc <;> decide) ?_
  simp [endOperator, hopens, h.brackets, Nat.not_le.mpr hlimit, Scanner.emit]

theorem Behind.opening {c : Char} (h : s.Behind brackets ts) (hc : c = '(' ∨ c = '[' ∨ c = '\x7b')
    (hlimit : brackets.length < bracketLimit) :
    (s.step c).Behind (c :: brackets) (.op (String.ofList [c]) :: ts) := by
  have hmark : c ∈ marks ∧ c ≠ '=' := by obtain rfl | rfl | rfl := hc <;> decide
  refine h.step hmark.2 fun u hu => ?_
  rw [step_mark hmark.1 hu.mode]
  exact hu.opening hc hlimit

theorem Behind.closing {c o : Char} (h : s.Behind (o :: brackets) ts)
    (hc : opening? (String.ofList [c]) = some o) :
    (s.step c).Behind brackets (.op (String.ofList [c]) :: ts) := by
  have hmark : c = ')' ∨ c = ']' ∨ c = '\x7d' := by
    unfold opening? at hc
    split at hc <;> simp_all [← String.toList_inj]
  refine h.step (by obtain rfl | rfl | rfl := hmark <;> decide) fun u hu => ?_
  rw [step_mark (by obtain rfl | rfl | rfl := hmark <;> decide) hu.mode]
  refine hu.mark (by obtain rfl | rfl | rfl := hmark <;> decide) ?_
  obtain rfl | rfl | rfl := hmark <;> simp [endOperator, hc, hu.brackets, Scanner.emit]

theorem Behind.separator {c : Char} (h : s.Behind brackets ts) (hc : c = ',' ∨ c = ':') :
    (s.step c).Behind brackets (.op (String.ofList [c]) :: ts) := by
  refine h.step (by obtain rfl | rfl := hc <;> decide) fun u hu => ?_
  rw [step_mark (by obtain rfl | rfl := hc <;> decide) hu.mode]
  refine hu.mark (by obtain rfl | rfl := hc <;> decide) ?_
  obtain rfl | rfl := hc <;> simp [endOperator, opening?, hu.brackets, Scanner.emit]

theorem Behind.space (h : s.Behind brackets ts) : (s.step ' ').Behind brackets ts := by
  refine h.step (by decide) fun u hu => ?_
  have hspace : u.step ' ' = { u with mode := .between } := by
    simp [Scanner.step, take, hu.mode, begin]
  rw [hspace]
  exact Amid.behind ⟨rfl, hu.brackets, hu.tokens, hu.column, hu.blanks, hu.lines⟩

theorem Behind.lineFeed (h : s.Behind brackets ts) (hbrackets : brackets ≠ []) :
    (s.step '\n').Behind brackets ts := by
  refine h.step (by decide) fun u hu => ?_
  have hline : u.step '\n' = { u with mode := .between, row := u.row + 1 } := by
    simp [Scanner.step, take, hu.mode, begin, endLine, hu.brackets, hbrackets]
  rw [hline]
  exact Amid.behind ⟨rfl, hu.brackets, hu.tokens, hu.column, hu.blanks, hu.lines⟩

theorem Behind.string (h : s.Behind brackets ts) {t : String} (ht : t ≠ "") :
    ((Json.writeString true t).foldl Scanner.step s).Behind brackets (.str (written t) :: ts) := by
  have hcons : Json.writeString true t =
      '"' :: (t.toList.flatMap (Json.escapeChar true) ++ ['"']) := Json.writeString_string true t
  obtain ⟨u, hu, hsame⟩ := h
  have hstring := foldl_step_writeString hu.mode ht []
  rw [List.append_nil, hcons, List.foldl_cons] at hstring
  rw [hcons, List.foldl_cons, hsame '"' (by decide), hstring]
  exact (hu.emit (.str (written t))).behind

/-- One field of a dictionary, up to the value. -/
theorem Behind.key (h : s.Behind brackets ts) {t : String} (ht : t ≠ "") :
    ((Json.writeString true t ++ [':', ' ']).foldl Scanner.step s).Behind brackets
      (.op ":" :: .str (written t) :: ts) := by
  rw [List.foldl_append]
  exact ((h.string ht).separator (.inr rfl)).space

theorem Behind.input {source : InputSource} (h : s.Behind brackets ts)
    (hlimit : brackets.length < bracketLimit) (hsource : Named source) :
    (source.toJson.text.toList.foldl Scanner.step s).Behind brackets
      ((inputTokens source).reverse ++ ts) := by
  have hkind := (h.opening (.inr (.inr rfl)) hlimit).key (t := "kind") (by decide)
  cases source with
  | block =>
      have hend := (hkind.string (t := "source") (by decide)).closing (c := '\x7d') rfl
      rw [toList_text_block]
      simp only [List.foldl_append, List.foldl_cons, List.foldl_nil]
      simp only [List.foldl_append, List.foldl_cons, List.foldl_nil] at hend
      exact hend
  | module kind name =>
      have hnonempty : kind ≠ "" := by
        obtain ⟨rfl | rfl, -⟩ := hsource <;> decide
      have hname := (((hkind.string hnonempty).separator (.inl rfl)).space).key (t := "name")
        (by decide)
      have hend := (hname.string hsource.2).closing (c := '\x7d') rfl
      rw [toList_text_module]
      simp only [List.foldl_append, List.foldl_cons, List.foldl_nil]
      simp only [List.foldl_append, List.foldl_cons, List.foldl_nil] at hend
      exact hend

theorem Behind.inputs {sources : List InputSource} (h : s.Behind ('[' :: brackets) ts)
    (hlimit : brackets.length + 1 < bracketLimit) (hsources : ∀ source ∈ sources, Named source) :
    (((",".intercalate (sources.map fun s => s.toJson.text)).toList ++ [']']).foldl Scanner.step
      s).Behind brackets ((inputsTokens sources).reverse ++ ts) := by
  induction sources generalizing s ts with
  | nil => exact h.closing rfl
  | cons source rest ih =>
      have hinput := h.input hlimit (hsources source List.mem_cons_self)
      cases rest with
      | nil =>
          have hend := hinput.closing (c := ']') rfl
          simp only [List.map_cons, List.map_nil, String.intercalate_singleton, List.foldl_append,
            List.foldl_cons, List.foldl_nil]
          simpa [inputsTokens] using hend
      | cons next rest =>
          have hend := ih (hinput.separator (.inl rfl))
            fun source h => hsources source (List.mem_cons_of_mem _ h)
          rw [List.map_cons, List.map_cons, String.intercalate_cons_cons]
          simp only [String.toList_append, List.foldl_append] at hend ⊢
          simpa [inputsTokens] using hend

end Scanner

end BlockWorkbench.Script
