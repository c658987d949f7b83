import BlockWorkbench.Proofs.Json.Numbers
import BlockWorkbench.Proofs.Json.Strings

/-!
Values written and read again. What holds no name twice in one object, no integer too long and no
brackets nested too deeply is read as it was written, in any layout whose indentation is blank.
Texts may be read as texts of another type than they were. The fuel that reading takes is bounded
by the length of the text.
-/

namespace BlockWorkbench.Json

variable {τ σ : Type}

mutual

/-- Values that can be written and read again inside `depth` further brackets. -/
def Readable : Nat → Json τ → Prop
  | _, .null | _, .bool _ | _, .float _ | _, .str _ => True
  | _, .int n => (Nat.toDigits 10 n.natAbs).length ≤ Number.digitLimit
  | 0, .list _ | 0, .object _ => False
  | depth + 1, .list items => ReadableItems depth items
  | depth + 1, .object fields => (fields.map (·.1)).Nodup ∧ ReadableFields depth fields

def ReadableItems : Nat → List (Json τ) → Prop
  | _, [] => True
  | depth, v :: rest => Readable depth v ∧ ReadableItems depth rest

def ReadableFields : Nat → List (τ × Json τ) → Prop
  | _, [] => True
  | depth, (_, v) :: rest => Readable depth v ∧ ReadableFields depth rest

end

section

variable {ρ : Type} {f : τ → σ}

theorem mapItems_eq_map (vs : List (Json τ)) : mapItems f vs = vs.map (mapTexts f) := by
  induction vs with
  | nil => rfl
  | cons v rest ih => rw [mapItems, ih, List.map_cons]

theorem mapFields_eq_map (fields : List (τ × Json τ)) :
    mapFields f fields = fields.map fun e => (f e.1, e.2.mapTexts f) := by
  induction fields with
  | nil => rfl
  | cons e rest ih => rw [mapFields, ih, List.map_cons]

mutual

theorem mapTexts_mapTexts {g : σ → ρ} {k : τ → ρ} (h : ∀ s, g (f s) = k s) (v : Json τ) :
    (v.mapTexts f).mapTexts g = v.mapTexts k := by
  match v with
  | .null | .bool _ | .int _ | .float _ => rfl
  | .str s => rw [mapTexts, mapTexts, mapTexts, h]
  | .list items => rw [mapTexts, mapTexts, mapTexts, mapItems_mapItems h]
  | .object fields => rw [mapTexts, mapTexts, mapTexts, mapFields_mapFields h]

theorem mapItems_mapItems {g : σ → ρ} {k : τ → ρ} (h : ∀ s, g (f s) = k s) (vs : List (Json τ)) :
    mapItems g (mapItems f vs) = mapItems k vs := by
  match vs with
  | [] => rfl
  | v :: rest => rw [mapItems, mapItems, mapItems, mapTexts_mapTexts h, mapItems_mapItems h]

theorem mapFields_mapFields {g : σ → ρ} {k : τ → ρ} (h : ∀ s, g (f s) = k s)
    (fields : List (τ × Json τ)) : mapFields g (mapFields f fields) = mapFields k fields := by
  match fields with
  | [] => rfl
  | (n, v) :: rest =>
      rw [mapFields, mapFields, mapFields, h, mapTexts_mapTexts h, mapFields_mapFields h]

end

mutual

/-- Texts that are kept leave a value as it is. -/
theorem mapTexts_eq_self {f : τ → τ} (h : ∀ s, f s = s) (v : Json τ) : v.mapTexts f = v := by
  match v with
  | .null | .bool _ | .int _ | .float _ => rfl
  | .str s => rw [mapTexts, h]
  | .list items => rw [mapTexts, mapItems_eq_self h]
  | .object fields => rw [mapTexts, mapFields_eq_self h]

theorem mapItems_eq_self {f : τ → τ} (h : ∀ s, f s = s)
    (vs : List (Json τ)) : mapItems f vs = vs := by
  match vs with
  | [] => rfl
  | v :: rest => rw [mapItems, mapTexts_eq_self h, mapItems_eq_self h]

theorem mapFields_eq_self {f : τ → τ} (h : ∀ s, f s = s) (fields : List (τ × Json τ)) :
    mapFields f fields = fields := by
  match fields with
  | [] => rfl
  | (n, v) :: rest => rw [mapFields, h, mapTexts_eq_self h, mapFields_eq_self h]

end

end

theorem readableItems_iff {depth : Nat} {vs : List (Json τ)} :
    ReadableItems depth vs ↔ ∀ v ∈ vs, Readable depth v := by
  induction vs with
  | nil => simp [ReadableItems]
  | cons v rest ih => simp [ReadableItems, ih]

theorem readableFields_iff {depth : Nat} {fields : List (τ × Json τ)} :
    ReadableFields depth fields ↔ ∀ f ∈ fields, Readable depth f.2 := by
  induction fields with
  | nil => simp [ReadableFields]
  | cons f rest ih => simp [ReadableFields, ih]

/-- A value whose texts are replaced can be read if its names are kept apart. -/
theorem Readable.mapTexts {f : τ → σ} (hf : Function.Injective f) {depth : Nat} {v : Json τ}
    (h : Readable depth v) : Readable depth (v.mapTexts f) := by
  induction depth generalizing v with
  | zero =>
      cases v with
      | null | bool _ | int _ | float _ | str _ => exact h
      | list _ | object _ => exact h.elim
  | succ depth ih =>
      cases v with
      | null | bool _ | int _ | float _ | str _ => exact h
      | list items =>
          rw [Readable, readableItems_iff] at h
          rw [Json.mapTexts, Readable, readableItems_iff, mapItems_eq_map]
          simpa using fun v hv => ih (h v hv)
      | object fields =>
          rw [Readable, readableFields_iff] at h
          rw [Json.mapTexts, Readable, readableFields_iff, mapFields_eq_map, List.forall_mem_map]
          have hnames := h.1.map hf
          exact ⟨by simpa [Function.comp_def] using hnames, fun e he => ih (h.2 e he)⟩

/-- Layouts that put only blanks between tokens. -/
def Style.Blank (style : Style) : Prop :=
  ∀ blanks, style.indent = some blanks → ∀ c ∈ blanks, isSpace c

theorem ends_of_space {c : Char} (h : isSpace c = true) (rest : List Char) : Ends (c :: rest) := by
  intro d hd
  cases hd
  simp only [isSpace, Bool.or_eq_true, beq_iff_eq] at h
  obtain ((rfl | rfl) | rfl) | rfl := h <;> decide

theorem not_space_of_isDigit {c : Char} (h : Number.isDigit c = true) : isSpace c = false := by
  by_contra hs
  have := (ends_of_space (by simpa using hs) [] c rfl).1
  simp [h] at this

theorem ends_append {blanks : List Char} (hb : ∀ c ∈ blanks, isSpace c = true) {rest : List Char}
    (h : Ends rest) : Ends (blanks ++ rest) := by
  cases blanks with
  | nil => exact h
  | cons c cs => exact ends_of_space (hb c List.mem_cons_self) _

theorem skipSpace_append (blanks : List Char) (hb : ∀ c ∈ blanks, isSpace c = true) {c : Char}
    (hc : isSpace c = false) (rest : List Char) :
    skipSpace (blanks ++ c :: rest) = c :: rest := by
  rw [skipSpace, List.dropWhile_append_of_pos hb, List.dropWhile_cons_of_neg (by simp [hc])]

theorem skipSpace_cons {c : Char} (hc : isSpace c = false) (rest : List Char) :
    skipSpace (c :: rest) = c :: rest :=
  skipSpace_append [] (by simp) hc rest

theorem Style.Blank.lineBreak {style : Style} (h : style.Blank) (level : Nat) :
    ∀ c ∈ style.lineBreak level, isSpace c = true := by
  intro c hc
  unfold Style.lineBreak at hc
  split at hc
  · simp at hc
  · rename_i blanks hblanks
    obtain rfl | hc := List.mem_cons.mp hc
    · rfl
    · obtain ⟨l, hl, hc⟩ := List.mem_flatten.mp hc
      rw [List.eq_of_mem_replicate hl] at hc
      exact h blanks hblanks c hc

theorem Style.Blank.separator {style : Style} (h : style.Blank) (level : Nat) :
    ∃ gap, style.separator level = ',' :: gap ∧ ∀ c ∈ gap, isSpace c = true := by
  unfold Style.separator
  split
  · exact ⟨[' '], rfl, by simp [isSpace]⟩
  · exact ⟨_, rfl, h.lineBreak level⟩

/-- How the text of a number begins: with no blank, no closing bracket and no mark. -/
theorem readNumber_head {cs : List Char} {r : Json τ × List Char} (h : readNumber cs = .ok r) :
    ∃ c more, cs = c :: more ∧ isSpace c = false ∧ c ≠ ']' ∧ c ≠ '\x7d' ∧ c ≠ '\ufeff' := by
  obtain ⟨negative, c, more, rfl, hc⟩ := readNumber_begins h
  cases negative with
  | true => exact ⟨'-', _, rfl, by decide⟩
  | false =>
      refine ⟨c, more, rfl, not_space_of_isDigit hc, ?_, ?_, ?_⟩ <;>
        exact fun heq => absurd (heq ▸ hc) (by decide)

/-- How a float begins. -/
theorem float_head (x : Float) :
    ∃ c more, (Number.jsonFloats.render x).toList = c :: more ∧ isSpace c = false ∧ c ≠ ']' ∧
      c ≠ '\x7d' ∧ c ≠ '\ufeff' := by
  unfold Number.FloatLayout.render
  split
  · exact ⟨'N', _, rfl, by decide⟩
  · exact ⟨'I', _, rfl, by decide⟩
  · exact ⟨'-', _, by rw [String.toList_append]; rfl, by decide⟩
  · rename_i b h
    have hread := readNumber_finite (τ := String) h ends_nil
    rw [List.append_nil] at hread
    rw [String.toList_ofList]
    exact readNumber_head hread

section

variable [DecidableEq τ]

theorem setField_append {fields : List (τ × Json τ)} {n : τ}
    (h : n ∉ fields.map (·.1)) (v : Json τ) : setField fields n v = fields ++ [(n, v)] := by
  induction fields with
  | nil => rfl
  | cons f rest ih =>
      obtain ⟨m, w⟩ := f
      simp only [List.map_cons, List.mem_cons, not_or] at h
      simp [setField, Ne.symm h.1, ih h.2]

end

variable [Spelled τ]

/-- How a written value begins. -/
theorem write_head (style : Style) (level : Nat) {depth : Nat} {v : Json τ} {f : τ → σ}
    (h : Readable depth (v.mapTexts f)) :
    ∃ c cs, write style level v = c :: cs ∧ isSpace c = false ∧ c ≠ ']' ∧ c ≠ '\x7d' ∧
      c ≠ '\ufeff' := by
  cases v with
  | null => exact ⟨'n', _, rfl, by decide⟩
  | bool b => cases b with
    | true => exact ⟨'t', _, rfl, by decide⟩
    | false => exact ⟨'f', _, rfl, by decide⟩
  | int n =>
      have hread := readNumber_int (τ := String) h ends_nil
      rw [List.append_nil] at hread
      exact readNumber_head hread
  | float x => exact float_head x
  | str s => exact ⟨'"', _, rfl, by decide⟩
  | list items => cases items with
    | nil => exact ⟨'[', _, rfl, by decide⟩
    | cons v rest => exact ⟨'[', _, rfl, by decide⟩
  | object fields => cases fields with
    | nil => exact ⟨'\x7b', _, rfl, by decide⟩
    | cons f rest => exact ⟨'\x7b', _, rfl, by decide⟩

theorem writeItems_ends {style : Style} (hs : style.Blank) (level : Nat) (vs : List (Json τ))
    {rest : List Char} (h : Ends rest) : Ends (writeItems style level vs ++ rest) := by
  cases vs with
  | nil => exact h
  | cons v vs =>
      obtain ⟨gap, hgap, -⟩ := hs.separator level
      rw [writeItems, hgap]
      intro c hc
      cases hc
      decide

theorem writeFields_ends {style : Style} (hs : style.Blank) (level : Nat)
    (fs : List (τ × Json τ)) {rest : List Char} (h : Ends rest) :
    Ends (writeFields style level fs ++ rest) := by
  cases fs with
  | nil => exact h
  | cons f fs =>
      obtain ⟨gap, hgap, -⟩ := hs.separator level
      rw [writeFields, hgap]
      intro c hc
      cases hc
      decide

section

variable [DecidableEq τ]

theorem readValue_list {fuel depth : Nat} {cs more : List Char} {c : Char}
    (hcs : skipSpace cs = c :: more) (hc : c ≠ ']') :
    readValue (fuel + 1) (depth + 1) ('[' :: cs) =
      (readItems fuel depth (c :: more)).map fun p => ((.list p.1 : Json τ), p.2) := by
  rw [readValue, if_neg (Nat.succ_ne_zero depth), hcs]
  split
  · simp_all
  · rfl

theorem readValue_object {fuel depth : Nat} {cs more : List Char} {c : Char}
    (hcs : skipSpace cs = c :: more) (hc : c ≠ '\x7d') :
    readValue (fuel + 1) (depth + 1) ('\x7b' :: cs) =
      (readFields fuel depth [] (c :: more)).map fun p => ((.object p.1 : Json τ), p.2) := by
  rw [readValue, if_neg (Nat.succ_ne_zero depth), hcs]
  split
  · simp_all
  · rfl

end

variable [Spelled σ] [DecidableEq σ]

mutual

/-- A written value is read as itself, with its texts read again, whatever follows it. -/
theorem readValue_write {style : Style} (hs : style.Blank) (v : Json τ) {depth : Nat}
    (level fuel : Nat) (rest : List Char)
    (hv : Readable depth (v.mapTexts (reread style.ascii) : Json σ)) (hrest : Ends rest)
    (hfuel : (write style level v).length ≤ fuel) :
    readValue fuel depth (write style level v ++ rest) =
      .ok ((v.mapTexts (reread style.ascii) : Json σ), rest) := by
  obtain ⟨c, cs, hc, -⟩ := write_head style level hv
  obtain ⟨fuel, rfl⟩ : ∃ f, fuel = f + 1 :=
    ⟨fuel - 1, by simp only [hc, List.length_cons] at hfuel; omega⟩
  match v with
  | .null =>
      change readValue _ _ ('n' :: 'u' :: 'l' :: 'l' :: rest) = _
      exact readValue_word (by decide) (by decide) (by decide) (by simp [readWord?, words, mapTexts])
  | .bool true =>
      change readValue _ _ ('t' :: 'r' :: 'u' :: 'e' :: rest) = _
      exact readValue_word (by decide) (by decide) (by decide) (by simp [readWord?, words, mapTexts])
  | .bool false =>
      change readValue _ _ ('f' :: 'a' :: 'l' :: 's' :: 'e' :: rest) = _
      exact readValue_word (by decide) (by decide) (by decide) (by simp [readWord?, words, mapTexts])
  | .int n => exact readValue_number (readNumber_int hv hrest)
  | .float x => exact readValue_float x fuel depth hrest
  | .str s =>
      simp only [write, writeString, List.cons_append, List.append_assoc, List.nil_append,
        readValue, readString_writeString, ok_map, mapTexts]
  | .list items =>
      obtain ⟨depth, rfl⟩ : ∃ d, depth = d + 1 := by
        cases depth with
        | zero => simp [mapTexts, Readable] at hv
        | succ d => exact ⟨d, rfl⟩
      match items with
      | [] => rfl
      | v :: vs =>
          simp only [mapTexts, mapItems, Readable, ReadableItems] at hv
          simp only [write, List.cons_append, List.append_assoc, List.nil_append, List.length_cons,
            List.length_append, List.length_nil] at hfuel ⊢
          -- The reader first looks for the end of the list, which no value starts with.
          obtain ⟨d, ds, hd, hspace, hclose, -⟩ := write_head style (level + 1) hv.1
          have hskip := skipSpace_append _ (hs.lineBreak (level + 1)) hspace
            (ds ++ (writeItems style (level + 1) vs ++ (style.lineBreak level ++ ']' :: rest)))
          rw [hd, List.cons_append, readValue_list hskip hclose, ← List.cons_append, ← hd,
            readItems_write hs v vs _ _ rest hv.1 hv.2 (hs.lineBreak level)
              (by simp only [List.length_append]; omega)]
          rfl
  | .object fields =>
      obtain ⟨depth, rfl⟩ : ∃ d, depth = d + 1 := by
        cases depth with
        | zero => simp [mapTexts, Readable] at hv
        | succ d => exact ⟨d, rfl⟩
      match fields with
      | [] => rfl
      | (n, v) :: fs =>
          simp only [mapTexts, mapFields, Readable, ReadableFields] at hv
          simp only [write, List.cons_append, List.append_assoc, List.nil_append, List.length_cons,
            List.length_append, List.length_nil] at hfuel ⊢
          have hskip := skipSpace_append _ (hs.lineBreak (level + 1)) (c := '"') (by decide)
            ((Spelled.points n).flatMap (escapePoint style.ascii) ++ '"' :: (':' :: ' ' ::
              (write style (level + 1) v ++ (writeFields style (level + 1) fs ++
                (style.lineBreak level ++ '\x7d' :: rest)))))
          have hfields := readFields_write hs n v fs (level + 1) fuel rest [] hv.1 hv.2.1 hv.2.2
            (hs.lineBreak level) (by simp only [List.length_append]; omega)
          simp only [writeString, List.cons_append, List.append_assoc, List.nil_append]
            at hskip hfields ⊢
          rw [readValue_object hskip (by decide), hfields]
          rfl
termination_by fuel
decreasing_by all_goals omega

/-- The items of a written list. -/
theorem readItems_write {style : Style} (hs : style.Blank) (v : Json τ) (vs : List (Json τ))
    {depth : Nat} (level fuel : Nat) {blanks : List Char} (rest : List Char)
    (hv : Readable depth (v.mapTexts (reread style.ascii) : Json σ))
    (hvs : ReadableItems depth (mapItems (reread style.ascii) vs : List (Json σ)))
    (hblanks : ∀ c ∈ blanks, isSpace c = true)
    (hfuel : (write style level v ++ writeItems style level vs).length + 1 ≤ fuel) :
    readItems fuel depth
        (write style level v ++ (writeItems style level vs ++ (blanks ++ ']' :: rest))) =
      .ok ((mapItems (reread style.ascii) (v :: vs) : List (Json σ)), rest) := by
  obtain ⟨fuel, rfl⟩ : ∃ f, fuel = f + 1 := ⟨fuel - 1, by omega⟩
  rw [List.length_append] at hfuel
  have hclose : Ends (blanks ++ ']' :: rest) :=
    ends_append hblanks (by intro c hc; cases hc; decide)
  rw [readItems,
    readValue_write hs v _ _ _ hv (writeItems_ends hs level vs hclose) (by omega), ok_bind]
  match vs with
  | [] =>
      simp only [writeItems, List.nil_append, skipSpace_append _ hblanks (c := ']') (by decide),
        mapItems]
  | w :: ws =>
      simp only [mapItems, ReadableItems] at hvs
      obtain ⟨gap, hgap, hblank⟩ := hs.separator level
      obtain ⟨c, cs, hc, hspace, -⟩ := write_head style level hvs.1
      have hskip := skipSpace_append _ hblank hspace
        (cs ++ (writeItems style level ws ++ (blanks ++ ']' :: rest)))
      simp only [writeItems, hgap, List.cons_append, List.append_assoc, List.length_cons,
        List.length_append] at hfuel ⊢
      have hrest := readItems_write hs w ws level fuel rest hvs.1 hvs.2 hblanks
        (by simp only [List.length_append]; omega)
      rw [hc, List.cons_append] at hrest ⊢
      simp only [skipSpace_cons (c := ',') (by decide), hskip, hrest, ok_bind, mapItems]
termination_by fuel
decreasing_by all_goals omega

/-- The fields of a written object, behind those already read. -/
theorem readFields_write {style : Style} (hs : style.Blank) (n : τ) (v : Json τ)
    (fs : List (τ × Json τ)) {depth : Nat} (level fuel : Nat) {blanks : List Char}
    (rest : List Char) (before : List (σ × Json σ))
    (hnames : ((before ++ (mapFields (reread style.ascii) ((n, v) :: fs) :
      List (σ × Json σ))).map (·.1)).Nodup)
    (hv : Readable depth (v.mapTexts (reread style.ascii) : Json σ))
    (hfs : ReadableFields depth (mapFields (reread style.ascii) fs : List (σ × Json σ)))
    (hblanks : ∀ c ∈ blanks, isSpace c = true)
    (hfuel : (write style level v ++ writeFields style level fs).length + 1 ≤ fuel) :
    readFields fuel depth before
        (writeString style.ascii n ++ (':' :: ' ' :: (write style level v ++
          (writeFields style level fs ++ (blanks ++ '\x7d' :: rest))))) =
      .ok (before ++ (mapFields (reread style.ascii) ((n, v) :: fs) : List (σ × Json σ)), rest) := by
  obtain ⟨fuel, rfl⟩ : ∃ f, fuel = f + 1 := ⟨fuel - 1, by omega⟩
  rw [List.length_append] at hfuel
  have hclose : Ends (blanks ++ '\x7d' :: rest) :=
    ends_append hblanks (by intro c hc; cases hc; decide)
  have hnew : reread style.ascii n ∉ before.map (·.1) := by
    rw [mapFields, List.map_append, List.map_cons, List.nodup_middle, List.nodup_cons] at hnames
    exact fun h => hnames.1 (List.mem_append_left _ h)
  obtain ⟨d, ds, hd, hspace, -⟩ := write_head style level hv
  have hvalue := readValue_write hs v level fuel _ hv
    (writeFields_ends hs level fs hclose) (by omega)
  rw [hd, List.cons_append] at hvalue ⊢
  have hgap : ∀ X, skipSpace (' ' :: d :: X) = d :: X :=
    skipSpace_append [' '] (by simp [isSpace]) hspace
  simp only [writeString, List.cons_append, List.append_assoc, List.nil_append]
  rw [readFields, readString_writeString, ok_bind]
  simp only [skipSpace_cons (c := ':') (by decide), hgap, hvalue, ok_bind, setField_append hnew]
  match fs with
  | [] =>
      simp only [writeFields, List.nil_append, skipSpace_append _ hblanks (c := '\x7d') (by decide),
        mapFields]
  | (m, w) :: ws =>
      simp only [mapFields, ReadableFields] at hfs
      obtain ⟨gap, hsep, hblank⟩ := hs.separator level
      have hskip := skipSpace_append _ hblank (c := '"') (by decide)
        ((Spelled.points m).flatMap (escapePoint style.ascii) ++ '"' :: (':' :: ' ' ::
          (write style level w ++ (writeFields style level ws ++ (blanks ++ '\x7d' :: rest)))))
      simp only [writeFields, hsep, List.cons_append, List.append_assoc, List.length_cons,
        List.length_append] at hfuel ⊢
      have hfields := readFields_write hs m w ws level fuel rest
        (before ++ [(reread style.ascii n, v.mapTexts (reread style.ascii))])
        (by simpa [mapFields] using hnames) hfs.1 hfs.2 hblanks
        (by simp only [List.length_append]; omega)
      simp only [writeString, List.cons_append, List.append_assoc, List.nil_append]
        at hskip hfields ⊢
      simp only [skipSpace_cons (c := ',') (by decide), hskip, hfields, mapFields]
termination_by fuel
decreasing_by all_goals omega

end

/-- A written value is all that its text holds. -/
theorem readAll_write {style : Style} (hs : style.Blank) {v : Json τ}
    (hv : Readable depthLimit (v.mapTexts (reread style.ascii) : Json σ)) :
    read (String.ofList (write style 0 v)) =
      .ok (v.mapTexts (reread style.ascii) : Json σ) := by
  obtain ⟨c, cs, hc, hspace, -, -, hmark⟩ := write_head style 0 hv
  have hvalue := readValue_write hs v 0
    (2 * (write style 0 v).length + 2) [] hv ends_nil (by omega)
  have hhead : ¬ (write style 0 v).head? = some '\ufeff' := by simpa [hc] using hmark
  rw [List.append_nil] at hvalue
  simp only [read, String.toList_ofList, readAll, hhead, if_false]
  rw [show skipSpace (write style 0 v) = write style 0 v by rw [hc, skipSpace_cons hspace], hvalue]
  rfl

/-- The text of a value on one line is read as the value, with its texts read again. -/
theorem read_text {v : Json τ} (hv : Readable depthLimit (v.mapTexts (reread true) : Json σ)) :
    read v.text = .ok (v.mapTexts (reread true) : Json σ) :=
  readAll_write (fun _ h => by cases h) hv

/-- A value whose texts are strings is read as it was written. -/
theorem read_write {style : Style} (hs : style.Blank) {v : Json} (hv : Readable depthLimit v) :
    read (String.ofList (write style 0 v)) = .ok v := by
  have hsame := mapTexts_eq_self (reread_string style.ascii) v
  have hread : read (String.ofList (write style 0 v)) =
      .ok (v.mapTexts (reread style.ascii) : Json) := readAll_write hs (by rwa [hsame])
  rwa [hsame] at hread

theorem read_render {style : Style} (hs : style.Blank) (hsort : style.sortKeys = false) {v : Json}
    (hv : Readable depthLimit v) : read (v.render style) = .ok v := by
  simpa only [render, hsort, Bool.false_eq_true, if_false] using read_write hs hv

/-- A value as it is read from its text: halves of pairs that match and stand side by side are
joined. -/
def resent : Json Points → Json Points := mapTexts (reread true)

/-- A value whose texts are strings is read with its texts spelled out. -/
theorem read_render_spelled {style : Style} (hs : style.Blank) (hsort : style.sortKeys = false)
    {v : Json} (hv : Readable depthLimit v) : read (v.render style) = .ok v.spelled := by
  have hsame : v.mapTexts (reread style.ascii) = v.spelled :=
    congrArg v.mapTexts (funext (Points.reread_ofString style.ascii))
  have hread : read (String.ofList (write style 0 v)) =
      .ok (v.mapTexts (reread style.ascii) : Json Points) :=
    readAll_write hs (hsame ▸ hv.mapTexts Points.ofString_injective)
  rw [hsame] at hread
  simpa only [render, hsort, Bool.false_eq_true, if_false] using hread

theorem resent_spelled (v : Json) : v.spelled.resent = v.spelled :=
  mapTexts_mapTexts (Points.reread_ofString true) v

end BlockWorkbench.Json
