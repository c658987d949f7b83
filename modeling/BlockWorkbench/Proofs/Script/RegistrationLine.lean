import BlockWorkbench.Proofs.Script.Registration

/-!
The statement that registers a module is one line of a script, whatever the module is called and
whatever it reads.
-/

namespace BlockWorkbench.Script

open BlockWorkbench.Graph (registrationText)

namespace Scanner

variable {s : Scanner} {brackets : List Char} {ts : List Token}

/-- Behind a line feed a statement that is over is a line of its own. -/
theorem Behind.endLine (h : s.Behind [] ts) (hts : ts ≠ []) :
    (s.step '\n').AtRest ∧ ∃ placed : List Placed, placed.map (·.token) = ts.reverse ∧
      (s.step '\n').lines = [⟨0, 0, placed⟩] := by
  obtain ⟨u, hu, hsame⟩ := h
  have htokens : u.tokens ≠ [] := by
    intro hnil
    apply hts
    rw [← hu.tokens, hnil, List.map_nil]
  have hline : u.step '\n' = { u with
      mode := .lineStart 0 0, row := u.row + 1, tokens := [], lines := [u.currentLine] } := by
    simp [Scanner.step, take, hu.mode, begin, Scanner.endLine, hu.brackets, htokens, hu.lines]
  rw [hsame '\n' (by decide), hline]
  refine ⟨⟨rfl, hu.brackets, rfl⟩, u.tokens.reverse, ?_, ?_⟩
  · rw [List.map_reverse, hu.tokens]
  · simp [currentLine, hu.column, hu.blanks]

/-- Behind the name of the function that registers, and the bracket of its arguments. -/
theorem behind_function (kind : ModuleKind) :
    (('\n' :: kind.registerFunction.toList ++ ['(']).foldl step { row := 0 }).Behind ['(']
      [.op "(", .name kind.registerFunction] := by
  have hstart : ('\n' :: kind.registerFunction.toList ++ ['(']).foldl step { row := 0 } =
      { mode := .operator ['('], row := 1, tokens := [⟨.name kind.registerFunction, 1⟩] } := by
    cases kind <;> cbv
  have hamid : ({ mode := .between, row := 1, tokens := [⟨.name kind.registerFunction, 1⟩] } :
      Scanner).Amid [] [.name kind.registerFunction] := ⟨rfl, rfl, rfl, rfl, rfl, rfl⟩
  rw [hstart]
  exact hamid.opening (.inl rfl) (by decide)

theorem Behind.indented (h : s.Behind brackets ts) (hbrackets : brackets ≠ []) :
    (['\n', ' ', ' ', ' ', ' '].foldl Scanner.step s).Behind brackets ts :=
  (h.lineFeed hbrackets).space.space.space.space

/-- A field of a dictionary on a line of its own, up to the value. -/
theorem Behind.field (h : s.Behind brackets ts) (hbrackets : brackets ≠ []) {t : String}
    (ht : t ≠ "") :
    ((',' :: ['\n', ' ', ' ', ' ', ' '] ++ (Json.writeString true t ++ [':', ' '])).foldl
      Scanner.step s).Behind brackets (.op ":" :: .str (written t) :: .op "," :: ts) := by
  rw [List.foldl_append]
  exact ((h.separator (.inl rfl)).indented hbrackets).key ht

end Scanner

theorem toList_registrationText (m : Module) (sources : List InputSource) :
    (registrationText m sources).toList =
      ('\n' :: m.kind.registerFunction.toList ++ ['(']) ++ '\x7b' :: ['\n', ' ', ' ', ' ', ' '] ++
      (Json.writeString true "name" ++ [':', ' ']) ++ Json.writeString true m.name ++
      (',' :: ['\n', ' ', ' ', ' ', ' '] ++ (Json.writeString true "inputs" ++ [':', ' '])) ++ '[' ::
      ((",".intercalate (sources.map fun s => s.toJson.text)).toList ++ [']']) ++
      (',' :: ['\n', ' ', ' ', ' ', ' '] ++ (Json.writeString true "handler" ++ [':', ' '])) ++
      Json.writeString true m.name ++ ['\n', '\x7d', ')'] ++ ['\n'] := by
  have hname : Json.writeString true "name" = "\"name\"".toList := rfl
  have hinputs : Json.writeString true "inputs" = "\"inputs\"".toList := rfl
  have hhandler : Json.writeString true "handler" = "\"handler\"".toList := rfl
  simp [registrationText, Json.stringText, hname, hinputs, hhandler]

/-- The registration of a module is one line, at the left edge. -/
theorem wholeLines_registrationText {m : Module} {sources : List InputSource} (hname : m.name ≠ "")
    (hsources : ∀ source ∈ sources, Named source) :
    ∃ placed : List Placed, placed.map (·.token) = registrationTokens m sources ∧
      WholeLines (registrationText m sources).toList [⟨0, 0, placed⟩] := by
  have hopen := (Scanner.behind_function m.kind).opening (c := '\x7b') (.inr (.inr rfl)) (by decide)
  have hfirst := ((hopen.indented (by simp)).key (t := "name") (by decide)).string hname
  have hlist := (hfirst.field (t := "inputs") (by simp) (by decide)).opening (c := '[')
    (.inr (.inl rfl)) (by decide)
  have hinputs := hlist.inputs (by decide) hsources
  have hlast := ((hinputs.field (t := "handler") (by simp) (by decide)).string hname).lineFeed
    (by simp)
  have hend := (hlast.closing (c := '\x7d') rfl).closing (c := ')') rfl
  obtain ⟨hrest, placed, hplaced, hlines⟩ := hend.endLine (by simp)
  refine ⟨placed, ?_, ?_⟩
  · rw [hplaced]
    simp [registrationTokens]
  · rw [toList_registrationText]
    simp only [List.foldl_append, List.foldl_cons, List.foldl_nil] at hrest hlines
    constructor
    · simpa only [List.foldl_append, List.foldl_cons, List.foldl_nil] using hrest
    · simp only [List.foldl_append, List.foldl_cons, List.foldl_nil, hlines]
      rfl

/-- Text without control characters other than line feeds. -/
def Printable (cs : List Char) : Prop := ∀ c ∈ cs, c = '\n' ∨ 0x20 ≤ c.toNat

section Printable

@[simp] theorem printable_nil : Printable [] := by simp [Printable]

@[simp] theorem printable_cons {c : Char} {cs : List Char} :
    Printable (c :: cs) ↔ (c = '\n' ∨ 0x20 ≤ c.toNat) ∧ Printable cs :=
  List.forall_mem_cons

@[simp] theorem printable_append {as bs : List Char} :
    Printable (as ++ bs) ↔ Printable as ∧ Printable bs :=
  List.forall_mem_append

theorem printable_hexDigits (width n : Nat) : Printable (Text.hexDigits width n) := by
  induction width generalizing n with
  | zero => exact printable_nil
  | succ width ih =>
      have hdigit : ∀ d < 16, 0x20 ≤ (Nat.digitChar d).toNat := by decide
      simp [Text.hexDigits, ih, hdigit _ (Nat.mod_lt n (by decide))]

theorem printable_unitEscape (n : Nat) : Printable (Json.unitEscape n) := by
  simp [Json.unitEscape, printable_hexDigits]

theorem printable_escapeChar (c : Char) : Printable (Json.escapeChar true c) := by
  have hescaped := Json.escaped_escapeChar true c
  generalize Json.escapeChar true c = cs at hescaped ⊢
  cases hescaped with
  | letter h =>
      have hletter : ∀ p ∈ Json.letterEscapes, 0x20 ≤ p.2.toNat := by decide
      simpa using Or.inr (hletter _ h)
  | unit => exact printable_unitEscape _
  | pair => exact printable_append.mpr ⟨printable_unitEscape _, printable_unitEscape _⟩
  | plain _ _ hline => simpa using Or.inr hline

@[simp] theorem printable_writeString (t : String) : Printable (Json.writeString true t) := by
  have hbody : Printable (t.toList.flatMap (Json.escapeChar true)) := by
    intro c hc
    obtain ⟨d, -, hd⟩ := List.mem_flatMap.mp hc
    exact printable_escapeChar d c hd
  simp [Json.writeString_string, hbody]

theorem printable_inputs (sources : List InputSource) :
    Printable (",".intercalate (sources.map fun s => s.toJson.text)).toList := by
  have hsource : ∀ source : InputSource, Printable source.toJson.text.toList := by
    intro source
    cases source <;> simp [toList_text_block, toList_text_module]
  induction sources with
  | nil => simp
  | cons source rest ih =>
      cases rest with
      | nil => simp [hsource]
      | cons next rest =>
          rw [List.map_cons, List.map_cons, String.intercalate_cons_cons]
          simp only [String.toList_append, printable_append]
          exact ⟨⟨hsource source, by simp⟩, ih⟩

theorem printable_registrationText (m : Module) (sources : List InputSource) :
    Printable (registrationText m sources).toList := by
  have hfunction : Printable m.kind.registerFunction.toList := by
    cases m.kind <;> simp [ModuleKind.registerFunction]
  simp [toList_registrationText, hfunction, printable_inputs, -String.toList_intercalate]

end Printable
end BlockWorkbench.Script
