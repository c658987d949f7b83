import BlockWorkbench.Graph.Module
import BlockWorkbench.Proofs.Script.Registration

/-!
The code that new modules start with. Whatever identifiers it is made of, it is the definition of
one function on two lines, which compiles unless a name is that of the constant or both parameters
have one name.
-/

namespace BlockWorkbench.Script

/-- A name of plain characters that is no keyword. -/
def Identifier (name : String) : Prop :=
  Text.isName name.toList = true ∧ (∀ c ∈ name.toList, c.toNat < 0x80) ∧ name ∉ keywords

instance (name : String) : Decidable (Identifier name) :=
  decidable_of_iff (Text.isName name.toList = true ∧ name.toList.all (·.toNat < 0x80) = true ∧
    name ∉ keywords) (by simp [Identifier])

theorem Identifier.exists_cons {name : String} (h : Identifier name) :
    ∃ c cs, name.toList = c :: cs ∧ Text.isNameStart c = true ∧ cs.all Text.isNameFollow = true ∧
      c.toNat < 0x80 := by
  obtain ⟨hname, hplain, -⟩ := h
  cases hcs : name.toList with
  | nil => simp [hcs, Text.isName] at hname
  | cons c cs =>
      rw [hcs, Text.isName, Bool.and_eq_true] at hname
      exact ⟨c, cs, rfl, hname.1, hname.2, hplain c (by simp [hcs])⟩

theorem Identifier.notMem {name : String} (h : Identifier name) {c : Char}
    (hc : Text.isNameStart c = false ∧ Text.isNameFollow c = false) : c ∉ name.toList := by
  obtain ⟨d, cs, hcs, hstart, hfollow, -⟩ := h.exists_cons
  rw [List.all_eq_true] at hfollow
  rw [hcs, List.mem_cons]
  rintro (rfl | hmem)
  · simp [hc.1] at hstart
  · simpa [hc.2] using hfollow c hmem

namespace Scanner

variable {s : Scanner}

theorem not_isDigit_of_isNameStart {c : Char} (hc : c.toNat < 0x80)
    (h : Text.isNameStart c = true) : Number.isDigit c = false := by
  simp only [Text.isNameStart, hc, if_true, Char.isAlpha, Char.isUpper, Char.isLower,
    Bool.or_eq_true, Bool.and_eq_true, decide_eq_true_eq, beq_iff_eq, ge_iff_le,
    UInt32.le_iff_toNat_le] at h
  change ((65 ≤ c.toNat ∧ c.toNat ≤ 90) ∨ (97 ≤ c.toNat ∧ c.toNat ≤ 122)) ∨ c = '_' at h
  rw [Bool.eq_false_iff, Number.isDigit]
  simp only [Bool.and_eq_true, decide_eq_true_eq, Char.le_def, UInt32.le_iff_toNat_le, ne_eq]
  change ¬ (48 ≤ c.toNat ∧ c.toNat ≤ 57)
  obtain h | rfl := h
  · omega
  · decide

theorem begin_isNameStart {c : Char} (hc : c.toNat < 0x80) (h : Text.isNameStart c = true) :
    s.begin c = { s with mode := .word [c] } := by
  have hne : ∀ d, Text.isNameStart d = false → c ≠ d := by
    rintro d hd rfl
    simp [hd] at h
  simp [begin, h, not_isDigit_of_isNameStart hc h, isQuote, hne ' ' (by decide),
    hne '\t' (by decide), hne '\x0c' (by decide), hne '\n' (by decide), hne '#' (by decide),
    hne '\\' (by decide), hne '"' (by decide), hne '\'' (by decide)]

theorem foldl_step_isNameFollow {cs ds : List Char} (h : cs.all Text.isNameFollow = true)
    (hs : s.mode = .word ds) : cs.foldl step s = { s with mode := .word (cs.reverse ++ ds) } := by
  induction cs generalizing s ds with
  | nil => simp [← hs]
  | cons c cs ih =>
      rw [List.all_cons, Bool.and_eq_true] at h
      have hline : c ≠ '\n' := by
        rintro rfl
        exact absurd h.1 (by decide)
      have hstep : s.step c = { s with mode := .word (c :: ds) } := by
        simp [step, take, hs, h.1, hline]
      rw [List.foldl_cons, hstep, ih h.2 rfl]
      simp

/-- An identifier between tokens is one name, whatever may follow a name. -/
theorem foldl_step_identifier {name : String} (h : Identifier name) (hs : s.mode = .between)
    {x : Char} (hx : Text.isNameFollow x = false ∧ isWide x = false ∧ isQuote x = false)
    (rest : List Char) :
    (name.toList ++ x :: rest).foldl step s = (x :: rest).foldl step (s.emit [.name name]) := by
  obtain ⟨c, cs, hcs, hstart, hfollow, hplain⟩ := h.exists_cons
  have hline : c ≠ '\n' := by
    rintro rfl
    exact absurd hstart (by decide)
  have hfirst : s.step c = { s with mode := .word [c] } := by
    simp [step, take, hs, begin_isNameStart hplain hstart, hline]
  have hword : name.toList.foldl step s = { s with mode := .word name.toList.reverse } := by
    rw [hcs, List.foldl_cons, hfirst, foldl_step_isNameFollow hfollow rfl]
    simp
  have hend : ({ s with mode := .word name.toList.reverse } : Scanner).endWord
      name.toList.reverse = s.emit [.name name] := by
    simp [endWord, h.1, Token.ofWord, h.2.2, Scanner.emit]
  rw [List.foldl_append, hword, List.foldl_cons, List.foldl_cons]
  congr 1
  simp only [step, take, hx.1, hx.2.1, hx.2.2, hend]
  simp [resume, Scanner.emit]

/-- The same behind an opening bracket, which is a token as soon as the identifier starts. -/
theorem foldl_step_argument {name : String} (h : Identifier name) (hs : s.mode = .operator ['('])
    (hbrackets : s.brackets = []) {x : Char}
    (hx : Text.isNameFollow x = false ∧ isWide x = false ∧ isQuote x = false) (rest : List Char) :
    (name.toList ++ x :: rest).foldl step s =
      (x :: rest).foldl step ({ s.emit [.op "("] with
        brackets := ['('] }.emit [.name name]) := by
  obtain ⟨c, cs, hcs, hstart, -, -⟩ := h.exists_cons
  have hequals : c ≠ '=' := by
    rintro rfl
    exact absurd hstart (by decide)
  have hend : s.endOperator ['('] =
      { s.emit [.op "("] with brackets := ['('] } := by
    simp [endOperator, hbrackets, bracketLimit]
  have hfirst : s.step c =
      ({ s.emit [.op "("] with brackets := ['('] } : Scanner).step c := by
    have hmark := startsOperator_mark (c := '(') (x := c) (by decide) hequals
    simp [step, take, hs, hmark, hend, resume, Scanner.emit]
  have hrest := foldl_step_identifier h
    (s := { s.emit [.op "("] with brackets := ['('] }) rfl hx rest
  rw [hcs, List.cons_append, List.foldl_cons] at hrest ⊢
  rw [hfirst, hrest]

end Scanner

/-- What the handler of a new module does: that of a map passes on the number of the block, that of
a store sets the value of its source. -/
inductive HandlerForm where
  | map
  | store (source : String)

namespace HandlerForm

/-- The code that defines a handler. -/
def text : HandlerForm → String → String
  | map, name => Module.mapTemplate name
  | store source, name => Module.storeTemplate name source

def params : HandlerForm → List String
  | map => [blockName]
  | store source => [source, "s"]

def body : HandlerForm → List Stmt
  | map => [.return (some (.index (.name blockName) (.str (.ofString "number"))))]
  | store source => [.expr (.call (.member (.name "s") "set") [.ofName source])]

/-- The statement that the code is. -/
def definition (f : HandlerForm) (name : String) : Stmt :=
  .define name (f.params.map (⟨·, none⟩)) f.body

/-- A form whose source, if it has one, is an identifier. -/
def Sound : HandlerForm → Prop
  | map => True
  | store source => Identifier source

/-- The first line of the code. -/
def head (f : HandlerForm) (name : String) : List Token :=
  match f with
  | map => [.keyword "def", .name name, .op "(", .name blockName, .op ")", .op ":"]
  | store source =>
    [.keyword "def", .name name, .op "(", .name source, .op ",", .name "s", .op ")", .op ":"]

/-- The second line of the code. -/
def tail : HandlerForm → List Token
  | map => [.keyword "return", .name blockName, .op "[", .str (.ofString "number"), .op "]"]
  | store source =>
    [.name "s", .op ".", .name "set", .op "(", .name source, .op ")"]

def lines (f : HandlerForm) (name : String) : List Line :=
  [⟨0, 0, (f.head name).map (⟨·, 0⟩)⟩, ⟨4, 4, f.tail.map (⟨·, 1⟩)⟩]

/-- The scanner behind the first parameter of a definition. -/
def behindFirst (name p : String) : Scanner where
  mode := .between
  brackets := ['(']
  row := 0
  tokens := [⟨.name p, 0⟩, ⟨.op "(", 0⟩, ⟨.name name, 0⟩, ⟨.keyword "def", 0⟩]

theorem foldl_step_first {name p : String} (h : Identifier name) (hp : Identifier p) {x : Char}
    (hx : Text.isNameFollow x = false ∧ Scanner.isWide x = false ∧ Scanner.isQuote x = false)
    (rest : List Char) :
    ("def ".toList ++ (name.toList ++ '(' :: (p.toList ++ x :: rest))).foldl Scanner.step
      { row := 0 } = (x :: rest).foldl Scanner.step (behindFirst name p) := by
  have hstart : "def ".toList.foldl Scanner.step { row := 0 } =
      { mode := .between, row := 0, tokens := [⟨.keyword "def", 0⟩] } := by rfl
  have hopen : (({ mode := .between, row := 0, tokens := [⟨.keyword "def", 0⟩] } : Scanner).emit
      [.name name]).step '(' = {
        mode := .operator ['('], row := 0
        tokens := [⟨.name name, 0⟩, ⟨.keyword "def", 0⟩] } := by cbv
  rw [List.foldl_append, hstart, Scanner.foldl_step_identifier h rfl (by decide), List.foldl_cons,
    hopen, Scanner.foldl_step_argument hp rfl rfl hx]
  rfl

theorem foldl_step_map {name : String} (h : Identifier name) :
    (map.text name).toList.foldl Scanner.step { row := 0 } =
      { row := 2, column := 4, blanks := 4, lines := (map.lines name).reverse } := by
  have hblock : Identifier blockName := by decide
  have htext : (map.text name).toList = "def ".toList ++ (name.toList ++ '(' ::
      (blockName.toList ++ ')' :: (":\n    return ".toList ++
        (blockName.toList ++ '[' :: "\"number\"]\n".toList)))) := by
    rw [text, Module.mapTemplate]
    simp only [String.toList_append, List.append_assoc]
    rfl
  have hbody : (')' :: ":\n    return ".toList).foldl Scanner.step (behindFirst name blockName) = {
      mode := .between, row := 1, column := 4, blanks := 4, tokens := [⟨.keyword "return", 1⟩]
      lines := [⟨0, 0, (map.head name).map (⟨·, 0⟩)⟩] } := by rfl
  have hend : ('[' :: "\"number\"]\n".toList).foldl Scanner.step (({
      mode := .between, row := 1, column := 4, blanks := 4, tokens := [⟨.keyword "return", 1⟩]
      lines := [⟨0, 0, (map.head name).map (⟨·, 0⟩)⟩] } : Scanner).emit [.name blockName]) = {
        row := 2, column := 4, blanks := 4, lines := (map.lines name).reverse } := by rfl
  rw [htext, foldl_step_first h hblock (by decide), ← List.cons_append, List.foldl_append, hbody,
    Scanner.foldl_step_identifier hblock rfl (by decide), hend]

theorem foldl_step_store {name source : String} (h : Identifier name)
    (hsource : Identifier source) :
    ((store source).text name).toList.foldl Scanner.step { row := 0 } =
      { row := 2, column := 4, blanks := 4, lines := ((store source).lines name).reverse } := by
  have htext : ((store source).text name).toList = "def ".toList ++ (name.toList ++ '(' ::
      (source.toList ++ ',' :: (" s):\n    s.set(".toList ++
        (source.toList ++ ')' :: ['\n'])))) := by
    rw [text, Module.storeTemplate]
    simp only [String.toList_append, List.append_assoc]
    rfl
  have hbody : (',' :: " s):\n    s.set(".toList).foldl Scanner.step (behindFirst name source) = {
      mode := .operator ['('], row := 1, column := 4, blanks := 4
      tokens := [⟨.name "set", 1⟩, ⟨.op ".", 1⟩, ⟨.name "s", 1⟩]
      lines := [⟨0, 0, ((store source).head name).map (⟨·, 0⟩)⟩] } := by rfl
  rw [htext, foldl_step_first h hsource (by decide), ← List.cons_append, List.foldl_append, hbody,
    Scanner.foldl_step_argument hsource rfl rfl (by decide)]
  rfl

theorem parseAll_lines (f : HandlerForm) (name : String) :
    parseAll (16 * (layout [(0, 0)] (f.lines name)).length + 16)
      (2 * (layout [(0, 0)] (f.lines name)).length + 2) (layout [(0, 0)] (f.lines name)) =
        .ok [f.definition name] := by
  cases f with
  | map => rfl
  | store source => rfl

/-- Whether its parameters may stand together. -/
def Placeable : HandlerForm → Prop
  | map => True
  | store source => source ≠ "s" ∧ source ≠ constantName

section Compiling

variable {f : HandlerForm} {name : String}

theorem notMem_text (hf : f.Sound) (h : Identifier name) {c : Char}
    (hc : Text.isNameStart c = false ∧ Text.isNameFollow c = false)
    (hplain : c ∉ "def (BLOCK): return BLOCK[\"number\"], s.set\n".toList) :
    c ∉ (f.text name).toList := by
  have hname := h.notMem hc
  cases f with
  | map =>
      simp only [text, Module.mapTemplate, blockName, String.toList_append] at hplain ⊢
      simp_all
  | store source =>
      have hsource := Identifier.notMem (show Identifier source from hf) hc
      simp only [text, Module.storeTemplate, String.toList_append] at hplain ⊢
      simp_all

theorem wholeLines (hf : f.Sound) (h : Identifier name) :
    WholeLines (f.text name).toList (f.lines name) := by
  cases f with
  | map => exact ⟨by rw [foldl_step_map h]; exact ⟨rfl, rfl, rfl⟩, by rw [foldl_step_map h]; simp⟩
  | store source =>
      exact ⟨by rw [foldl_step_store h hf]; exact ⟨rfl, rfl, rfl⟩,
        by rw [foldl_step_store h hf]; simp⟩

/-- The code of a handler is its definition. -/
theorem parseProgram_text (hf : f.Sound) (h : Identifier name) :
    parseProgram (f.text name) = .ok [f.definition name] := by
  have hplain : plainLineEnds (f.text name).toList = (f.text name).toList :=
    plainLineEnds_eq_self (notMem_text hf h (by decide) (by decide))
  have hclosed : closeLastLine (f.text name).toList = (f.text name).toList := by
    have hlast : (f.text name).toList.getLast? = some '\n' := by
      cases f <;> simp [text, Module.mapTemplate, Module.storeTemplate, List.getLast?_cons,
        List.getLast?_append]
    simp [closeLastLine, hlast]
  refine parseProgram_eq_ok.mpr ⟨f.lines name, ?_, parseAll_lines f name⟩
  rw [hplain, hclosed]
  exact wholeLines hf h

theorem arePlaced_definition :
    arePlaced false false [f.definition name] = true ↔ name ≠ constantName ∧ f.Placeable := by
  cases f with
  | map =>
      have hparameters : areParameters [blockName] = true := by decide
      simp [arePlaced, definition, Stmt.isPlaced, params, body, hparameters, Placeable]
  | store source =>
      have hparameters : areParameters [source, "s"] = true ↔
          source ≠ "s" ∧ source ≠ constantName := by
        obtain rfl | hne := eq_or_ne source "s"
        · simp [areParameters, List.eraseDups_cons]
        · have hconstant : "s" ≠ constantName := by decide
          simp [areParameters, List.eraseDups_cons, hne, Ne.symm hne, Ne.symm hconstant,
            ne_comm (a := constantName)]
      simp [arePlaced, definition, Stmt.isPlaced, params, body, hparameters, Placeable]

theorem compile_text_eq_ok (hf : f.Sound) (h : Identifier name) {program : Program} :
    compile (f.text name) = .ok program ↔
      program = [f.definition name] ∧ name ≠ constantName ∧ f.Placeable := by
  have hnull : (f.text name).contains '\x00' = false := by
    rw [String.contains_char_eq, decide_eq_false_iff_not]
    exact notMem_text hf h (by decide) (by decide)
  rw [compile_eq_ok, parseProgram_text hf h, Except.ok.injEq, ← arePlaced_definition]
  constructor
  · rintro ⟨-, rfl, hplaced⟩
    exact ⟨rfl, hplaced⟩
  · rintro ⟨rfl, hplaced⟩
    exact ⟨hnull, rfl, hplaced⟩

/-- The code compiles unless a name is that of the constant or both parameters have one name. -/
theorem compile_text (hf : f.Sound) (h : Identifier name) :
    (∃ program, compile (f.text name) = .ok program) ↔ name ≠ constantName ∧ f.Placeable := by
  simp [compile_text_eq_ok hf h]

end Compiling

end HandlerForm

end BlockWorkbench.Script
