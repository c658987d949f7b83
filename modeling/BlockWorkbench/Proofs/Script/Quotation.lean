import BlockWorkbench.Script.Lexer
import BlockWorkbench.Proofs.Json.Strings

/-!
Strings as JSON writes them, read as literals of scripts. The scanner takes the whole text for one
token. Characters beyond the basic plane stand there as two halves, which the script does not
join, so the token holds the numbers of the text and not its characters.
-/

namespace BlockWorkbench.Script

/-- The code points that a script reads in the JSON text of a string. -/
def written (s : String) : Points := (s.toList.flatMap (Json.charUnits true)).filterMap numbered?

theorem charUnits_lt {c : Char} {n : Nat} (h : n ∈ Json.charUnits true c) : n < 0x110000 := by
  have hlt := Json.toNat_lt c
  unfold Json.charUnits at h
  split at h
  · simp only [List.mem_cons, List.not_mem_nil, or_false] at h
    omega
  · simp only [List.mem_singleton] at h
    omega

theorem numbered?_of_lt {n : Nat} (h : n < 0x110000) : numbered? n = some ⟨n, h⟩ := dif_pos h

theorem map_val_filterMap_numbered? {ns : List Nat} (h : ∀ n ∈ ns, n < 0x110000) :
    (ns.filterMap numbered?).map Fin.val = ns := by
  induction ns with
  | nil => rfl
  | cons n rest ih =>
      have hn := numbered?_of_lt (h n List.mem_cons_self)
      have hrest := ih fun m hm => h m (List.mem_cons_of_mem n hm)
      rw [List.filterMap_cons_some hn, List.map_cons, hrest]

/-- A written string shows the string. -/
@[simp]
theorem toString_written (s : String) : (written s).toString = s := by
  have hlt : ∀ n ∈ s.toList.flatMap (Json.charUnits true), n < 0x110000 := by
    intro n hn
    obtain ⟨c, -, hc⟩ := List.mem_flatMap.mp hn
    exact charUnits_lt hc
  rw [Points.toString, written, map_val_filterMap_numbered? hlt, Json.joinUnits_flatMap,
    String.ofList_toList]

theorem written_injective : Function.Injective written := fun a b h => by
  rw [← toString_written a, h, toString_written]

theorem written_eq_nil_iff {s : String} : written s = [] ↔ s = "" := by
  rw [← written_injective.eq_iff]
  rfl

theorem unquoteFrom_plain {c : Char} (hc : c ≠ '\\') (more : List Char) :
    unquoteFrom .none (c :: more) = (unquoteFrom .none more).map (.ofChar c :: ·) := by
  rw [unquoteFrom]
  exact hc

theorem unquoteFrom_numbered_zero (value : Nat) (more : List Char) :
    unquoteFrom (.numbered 0 value) more = (numbered? value).bind fun p =>
      (unquoteFrom .none more).map (p :: ·) := by
  cases hp : numbered? value with
  | none => simp [unquoteFrom, hp]
  | some p =>
      cases more with
      | nil => simp [unquoteFrom, hp]
      | cons c more =>
          by_cases hc : c = '\\'
          · subst hc
            simp [unquoteFrom, hp]
          · rw [unquoteFrom_plain hc]
            simp [unquoteFrom, hp, Function.comp_def]

theorem unquoteFrom_numbered_succ {left value d : Nat} {c : Char} (hc : Text.hexValue? c = some d)
    (more : List Char) :
    unquoteFrom (.numbered (left + 1) value) (c :: more) =
      unquoteFrom (.numbered left (value * 16 + d)) more := by
  rw [unquoteFrom, hc]

/-- The escape of a UTF-16 unit stands for its number. -/
theorem unquoteFrom_unitEscape {n : Nat} (h : n < 0x10000) (more : List Char) :
    unquoteFrom .none (Json.unitEscape n ++ more) = (numbered? n).bind fun p =>
      (unquoteFrom .none more).map (p :: ·) := by
  have hdigit : ∀ m, Text.hexValue? (Nat.digitChar (m % 16)) = some (m % 16) :=
    fun m => Text.hexValue?_digitChar (m % 16) (Nat.mod_lt m (by decide))
  have hstart : ∀ rest, unquoteFrom .none ('\\' :: 'u' :: rest) =
      unquoteFrom (.numbered 4 0) rest := fun rest => by
    simp [unquoteFrom, letterEscape?, octalDigit?, escapeWidth?]
  simp only [Json.unitEscape, Text.hexDigits, List.nil_append, List.cons_append, hstart,
    unquoteFrom_numbered_succ (hdigit _), unquoteFrom_numbered_zero]
  congr 2
  omega

/-- A character of the basic plane is its own number. -/
theorem filterMap_charUnits_eq {c : Char} (hc : c.toNat < 0x10000) :
    (Json.charUnits true c).filterMap numbered? = [.ofChar c] := by
  rw [Json.charUnits_of_lt fun _ => hc, List.filterMap_cons_some (numbered?_of_lt (Json.toNat_lt c)),
    List.filterMap_nil]
  rfl

theorem unquoteFrom_letter {c d : Char} (h : (c, d) ∈ Json.letterEscapes) (more : List Char) :
    unquoteFrom .none ('\\' :: d :: more) = (unquoteFrom .none more).map (.ofChar c :: ·) := by
  have hread : ∀ p ∈ Json.letterEscapes, p.2 ≠ '\n' ∧ letterEscape? p.2 = some p.1 := by decide
  obtain ⟨hline, hletter⟩ := hread _ h
  rw [unquoteFrom, unquoteFrom, hletter]
  exact hline

/-- An escaped character stands for its numbers. -/
theorem unquoteFrom_escapeChar (c : Char) (more : List Char) :
    unquoteFrom .none (Json.escapeChar true c ++ more) =
      (unquoteFrom .none more).map ((Json.charUnits true c).filterMap numbered? ++ ·) := by
  have hlt := Json.toNat_lt c
  have hescaped := Json.escaped_escapeChar true c
  generalize Json.escapeChar true c = cs at hescaped ⊢
  cases hescaped with
  | letter h =>
      rw [filterMap_charUnits_eq (Json.letterEscapes_lt h)]
      exact unquoteFrom_letter h more
  | unit h =>
      rw [unquoteFrom_unitEscape h, filterMap_charUnits_eq h, numbered?_of_lt hlt]
      rfl
  | pair _ h =>
      have hhigh := numbered?_of_lt (n := 0xd800 + (c.toNat - 0x10000) / 0x400) (by omega)
      have hlow := numbered?_of_lt (n := 0xdc00 + (c.toNat - 0x10000) % 0x400) (by omega)
      rw [List.append_assoc, unquoteFrom_unitEscape (by omega), unquoteFrom_unitEscape (by omega),
        Json.charUnits_of_le h, List.filterMap_cons_some hhigh, List.filterMap_cons_some hlow, hhigh,
        hlow]
      cases unquoteFrom .none more <;> rfl
  | plain _ hback _ hascii =>
      rw [filterMap_charUnits_eq ((hascii rfl).trans (by decide))]
      exact unquoteFrom_plain hback more

/-- Between its quotes, the JSON text of a string stands for its numbers. -/
theorem unquote?_written (s : String) :
    unquote? false (s.toList.flatMap (Json.escapeChar true)) = some (written s) := by
  simp only [unquote?, Bool.false_eq_true, if_false, written]
  generalize s.toList = cs
  induction cs with
  | nil => rfl
  | cons c rest ih =>
      rw [List.flatMap_cons, unquoteFrom_escapeChar, ih]
      simp

namespace Scanner

/-- Characters that may stand between double quotes as they are. -/
def Inside (body : List Char) : Prop :=
  ∀ (s : Scanner) (cs : List Char),
    body.foldl step { s with mode := .short '"' false cs false } =
      { s with mode := .short '"' false (body.reverse ++ cs) false }

theorem Inside.nil : Inside [] := fun _ _ => rfl

theorem Inside.append {as bs : List Char} (ha : Inside as) (hb : Inside bs) : Inside (as ++ bs) := by
  intro s cs
  rw [List.foldl_append, ha, hb]
  simp

theorem inside_plain {c : Char} (hquote : c ≠ '"') (hback : c ≠ '\\') (hline : c ≠ '\n') :
    Inside [c] := by
  intro s cs
  simp [step, take, inShort, hquote, hback, hline]

theorem inside_escaped {c : Char} (hline : c ≠ '\n') : Inside ['\\', c] := by
  intro s cs
  simp [step, take, inShort, hline]

theorem inside_hexDigits (width n : Nat) : Inside (Text.hexDigits width n) := by
  induction width generalizing n with
  | zero => exact .nil
  | succ width ih =>
      have hdigit : ∀ d < 16, Nat.digitChar d ≠ '"' ∧ Nat.digitChar d ≠ '\\' ∧
          Nat.digitChar d ≠ '\n' := by decide
      obtain ⟨hquote, hback, hline⟩ := hdigit (n % 16) (Nat.mod_lt n (by decide))
      exact (ih _).append (inside_plain hquote hback hline)

theorem inside_unitEscape (n : Nat) : Inside (Json.unitEscape n) :=
  (inside_escaped (c := 'u') (by decide)).append (inside_hexDigits 4 n)

theorem inside_escapeChar (c : Char) : Inside (Json.escapeChar true c) := by
  have hescaped := Json.escaped_escapeChar true c
  generalize Json.escapeChar true c = cs at hescaped ⊢
  cases hescaped with
  | letter h =>
      have hline : ∀ p ∈ Json.letterEscapes, p.2 ≠ '\n' := by decide
      exact inside_escaped (hline _ h)
  | unit => exact inside_unitEscape _
  | pair => exact (inside_unitEscape _).append (inside_unitEscape _)
  | plain hquote hback hline =>
      exact inside_plain hquote hback fun h => absurd (h ▸ hline) (by decide)

theorem inside_flatMap (cs : List Char) : Inside (cs.flatMap (Json.escapeChar true)) := by
  induction cs with
  | nil => exact .nil
  | cons c rest ih => exact (inside_escapeChar c).append ih

theorem head_escapeChar (c : Char) : ∃ d rest, Json.escapeChar true c = d :: rest ∧ d ≠ '"' := by
  have hescaped := Json.escaped_escapeChar true c
  generalize Json.escapeChar true c = cs at hescaped ⊢
  cases hescaped with
  | letter | unit | pair => exact ⟨'\\', _, rfl, by decide⟩
  | plain hquote => exact ⟨c, [], rfl, hquote⟩

/-- The JSON text of a string is one token. -/
theorem foldl_step_writeString {s : Scanner} (hs : s.mode = .between) {t : String} (ht : t ≠ "")
    (rest : List Char) :
    (Json.writeString true t ++ rest).foldl step s =
      rest.foldl step (s.emit [.str (written t)]) := by
  obtain ⟨c, cs, hcs⟩ : ∃ c cs, t.toList = c :: cs :=
    List.exists_cons_of_ne_nil fun h => ht (by simpa using h)
  obtain ⟨d, ds, hd, hquote⟩ := head_escapeChar c
  have hinside := inside_flatMap t.toList s []
  have hbody : t.toList.flatMap (Json.escapeChar true) =
      d :: (ds ++ cs.flatMap (Json.escapeChar true)) := by
    rw [hcs, List.flatMap_cons, hd, List.cons_append]
  have hopen : s.step '"' = { s with mode := .opened '"' false } := by
    simp [step, take, hs, begin, isQuote, Number.isDigit]
  have hfirst : ({ s with mode := .opened '"' false } : Scanner).step d =
      ({ s with mode := .short '"' false [] false } : Scanner).step d := by
    simp [step, take, hquote, inShort, breakOff]
  have hclose :
      Scanner.step { s with
        mode := .short '"' false (t.toList.flatMap (Json.escapeChar true)).reverse false } '"' =
      s.emit [.str (written t)] := by
    simp [step, take, inShort, endString, unquote?_written, emit]
  rw [Json.writeString_string, List.cons_append, List.cons_append, List.foldl_cons, hopen]
  rw [hbody] at hinside ⊢
  rw [List.append_assoc, List.foldl_append, List.foldl_cons, hfirst, ← List.foldl_cons, hinside]
  rw [← hbody, List.append_nil, List.singleton_append, List.foldl_cons, hclose]

end Scanner

end BlockWorkbench.Script
