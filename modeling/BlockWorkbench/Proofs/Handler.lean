import Mathlib
import BlockWorkbench.Graph.Handler

/-!
The definitions of a handler, line by line. A line defines a name if it consists of a lead, the name
and a rest that opens a bracket. A name that is more than gaps stands at one place only, however
many gaps it starts with, so where a line defines it is no matter of choice; and as no part of a
definition reaches beyond its line, a text is renamed by renaming each of its lines.
-/

namespace BlockWorkbench.Handler

/-- Gaps, one at least. -/
def IsGaps (cs : List Char) : Prop := cs ≠ [] ∧ ∀ c ∈ cs, isGap c = true

/-- The keyword of a definition, which may be marked as asynchronous. -/
def IsKeyword (word : List Char) : Prop :=
  word = "def".toList ∨ ∃ gaps, IsGaps gaps ∧ word = "async".toList ++ (gaps ++ "def".toList)

/-- The characters before the name in a definition. -/
def IsLead (lead : List Char) : Prop :=
  ∃ word gaps, IsKeyword word ∧ IsGaps gaps ∧ lead = word ++ gaps

theorem IsLead.exists_cons {lead : List Char} (h : IsLead lead) : ∃ c cs, lead = c :: cs := by
  obtain ⟨word, gaps, -, hgaps, rfl⟩ := h
  exact List.exists_cons_of_ne_nil (by simp [hgaps.1])

/-- The characters `cs` start with a definition of `name`. -/
structure Defines (name cs lead rest : List Char) : Prop where
  parts : cs = lead ++ (name ++ rest)
  isLead : IsLead lead
  opens : opens rest = true

/-- The name is more than gaps. -/
def Solid (name : List Char) : Prop := ∃ c ∈ name, isGap c = false

/-- What holds of a character and of neither gap tells it from them. -/
theorem isGap_eq_false {p : Char → Prop} (hspace : ¬ p ' ') (htab : ¬ p '\t') {c : Char} (h : p c) :
    isGap c = false := by
  rw [Bool.eq_false_iff]
  intro hgap
  simp only [isGap, Bool.or_eq_true, beq_iff_eq] at hgap
  obtain rfl | rfl := hgap
  · exact hspace h
  · exact htab h

theorem takeWhile_gaps {gaps : List Char} (h : ∀ c ∈ gaps, isGap c = true) (rest : List Char) :
    (gaps ++ rest).takeWhile isGap = gaps ++ rest.takeWhile isGap :=
  List.takeWhile_append_of_pos h

theorem drop_takeWhile (cs : List Char) :
    cs.drop (cs.takeWhile isGap).length = cs.dropWhile isGap := by
  nth_rewrite 2 [← List.takeWhile_append_dropWhile (p := isGap) (l := cs)]
  exact List.drop_left

theorem afterKeyword?_eq_some_iff {cs rest : List Char} :
    afterKeyword? cs = some rest ↔ ∃ word, IsKeyword word ∧ cs = word ++ rest := by
  constructor
  · intro h
    unfold afterKeyword? at h
    split at h
    · rename_i hasync
      obtain ⟨tail, rfl⟩ := List.isPrefixOf_iff_prefix.mp hasync
      have htail : ("async".toList ++ tail).drop 5 = tail := rfl
      simp only [htail, drop_takeWhile] at h
      split at h
      · rename_i hgap
        simp only [Bool.and_eq_true, Bool.not_eq_true', List.isEmpty_eq_false_iff] at hgap
        obtain ⟨more, hmore⟩ := List.isPrefixOf_iff_prefix.mp hgap.2
        rw [← hmore] at h
        cases h
        refine ⟨_, .inr ⟨tail.takeWhile isGap, ⟨hgap.1, fun c => List.mem_takeWhile_imp⟩, rfl⟩, ?_⟩
        have hmore' : ("def".toList ++ more).drop 3 = more := rfl
        rw [hmore', List.append_assoc, List.append_assoc, hmore, List.takeWhile_append_dropWhile]
      · cases h
    · split at h
      · rename_i hdef
        obtain ⟨tail, rfl⟩ := List.isPrefixOf_iff_prefix.mp hdef
        cases h
        exact ⟨_, .inl rfl, rfl⟩
      · cases h
  · rintro ⟨word, rfl | ⟨gaps, hgaps, rfl⟩, rfl⟩
    · rfl
    · have hdef : ("def".toList ++ rest).takeWhile isGap = [] := rfl
      have htail : ("async".toList ++ (gaps ++ "def".toList) ++ rest).drop 5 =
          gaps ++ ("def".toList ++ rest) := by
        rw [List.append_assoc, List.append_assoc]
        rfl
      have hasync : "async".toList.isPrefixOf ("async".toList ++ (gaps ++ "def".toList) ++ rest) =
          true := by
        rw [List.append_assoc]
        simp
      have hprefix : "def".toList.isPrefixOf ("def".toList ++ rest) = true := by simp
      have hne : gaps.isEmpty = false := by simpa using hgaps.1
      simp only [afterKeyword?, hasync, htail, takeWhile_gaps hgaps.2, hdef, List.append_nil,
        List.drop_left, hprefix, hne, Bool.not_false, Bool.and_self, if_true]
      rfl

/-- The gaps before the name, where the name stands behind some of the gaps that `cs` starts
with. -/
theorem separators?_eq_some {name cs : List Char} {n : Nat} (h : separators? name cs = some n) :
    ∃ gaps rest, IsGaps gaps ∧ cs = gaps ++ (name ++ rest) ∧ opens rest = true ∧
      gaps.length = n := by
  have hmem := List.mem_of_find?_eq_some h
  have hfits := List.find?_some h
  simp only [List.mem_map, List.mem_range] at hmem
  obtain ⟨i, hi, rfl⟩ := hmem
  generalize hn : (cs.takeWhile isGap).length - i = n at hfits ⊢
  simp only [Bool.and_eq_true] at hfits
  obtain ⟨rest, hrest⟩ := List.isPrefixOf_iff_prefix.mp hfits.1
  have htake : cs.take n = (cs.takeWhile isGap).take n := by
    nth_rewrite 1 [← List.takeWhile_append_dropWhile (p := isGap) (l := cs)]
    exact List.take_append_of_le_length (by omega)
  have hlength : (cs.take n).length = n := by
    rw [htake, List.length_take]
    omega
  refine ⟨cs.take n, rest, ⟨?_, ?_⟩, ?_, ?_, hlength⟩
  · rw [← List.length_pos_iff, hlength]
    omega
  · rw [htake]
    exact fun c hc => List.mem_takeWhile_imp (List.mem_of_mem_take hc)
  · rw [hrest, List.take_append_drop]
  · have hdrop : cs.drop (n + name.length) = rest := by
      rw [← List.drop_drop, ← hrest, List.drop_left]
    rw [← hdrop]
    exact hfits.2

theorem separators?_eq_none {name cs : List Char} (h : separators? name cs = none)
    {gaps rest : List Char} (hgaps : IsGaps gaps) (hcs : cs = gaps ++ (name ++ rest)) :
    opens rest = false := by
  have hle : gaps.length ≤ (cs.takeWhile isGap).length := by
    rw [hcs, takeWhile_gaps hgaps.2, List.length_append]
    omega
  have hpos := List.length_pos_iff.mpr hgaps.1
  have hmem : gaps.length ∈ (List.range (cs.takeWhile isGap).length).map
      fun i => (cs.takeWhile isGap).length - i :=
    List.mem_map.mpr ⟨(cs.takeWhile isGap).length - gaps.length,
      List.mem_range.mpr (by omega), by omega⟩
  have hnot := List.find?_eq_none.mp h _ hmem
  rw [← List.drop_drop, hcs, List.drop_left, List.drop_left] at hnot
  simpa using hnot

theorem lead?_eq_some {name cs : List Char} {n : Nat} (h : lead? name cs = some n) :
    ∃ lead rest, Defines name cs lead rest ∧ lead.length = n + 1 := by
  unfold lead? at h
  split at h
  · cases h
  · rename_i tail htail
    obtain ⟨word, hword, rfl⟩ := afterKeyword?_eq_some_iff.mp htail
    obtain ⟨k, hk, rfl⟩ := Option.map_eq_some_iff.mp h
    obtain ⟨gaps, rest, hgaps, rfl, hopens, rfl⟩ := separators?_eq_some hk
    refine ⟨word ++ gaps, rest, ⟨by simp, ⟨word, gaps, hword, hgaps, rfl⟩, hopens⟩, ?_⟩
    have hpos := List.length_pos_iff.mpr hgaps.1
    simp only [List.length_append]
    omega

theorem lead?_eq_none {name cs : List Char} (h : lead? name cs = none) (lead rest : List Char) :
    ¬ Defines name cs lead rest := by
  rintro ⟨rfl, ⟨word, gaps, hword, hgaps, rfl⟩, hopens⟩
  have hafter : afterKeyword? (word ++ gaps ++ (name ++ rest)) = some (gaps ++ (name ++ rest)) :=
    afterKeyword?_eq_some_iff.mpr ⟨word, hword, List.append_assoc ..⟩
  rw [lead?, hafter] at h
  have hnone := separators?_eq_none (Option.map_eq_none_iff.mp h) hgaps rfl
  simp [hopens] at hnone

/-- The gaps of a solid name end before another character. -/
theorem Solid.takeWhile {name : List Char} (h : Solid name) (gaps rest : List Char)
    (hgaps : ∀ c ∈ gaps, isGap c = true) :
    (gaps ++ (name ++ rest)).takeWhile isGap = gaps ++ name.takeWhile isGap := by
  obtain ⟨d, hd, hsolid⟩ := h
  rw [takeWhile_gaps hgaps, List.takeWhile_append, if_neg]
  intro hlength
  have hall : name.takeWhile isGap = name :=
    (List.takeWhile_prefix isGap).eq_of_length hlength
  have hgap : isGap d = true := List.mem_takeWhile_imp (hall.symm ▸ hd)
  simp [hgap] at hsolid

/-- A solid name stands at one place: what is left of the gaps before it when its own are taken off
comes before it. -/
theorem Defines.unique {name cs lead rest lead' rest' : List Char} (hname : Solid name)
    (h : Defines name cs lead rest) (h' : Defines name cs lead' rest') :
    lead = lead' ∧ rest = rest' := by
  obtain ⟨hcs, ⟨word, gaps, hword, hgaps, rfl⟩, -⟩ := h
  obtain ⟨hcs', ⟨word', gaps', hword', hgaps', rfl⟩, -⟩ := h'
  rw [List.append_assoc] at hcs hcs'
  have hafter : some (gaps ++ (name ++ rest)) = some (gaps' ++ (name ++ rest')) :=
    (afterKeyword?_eq_some_iff.mpr ⟨word, hword, hcs⟩).symm.trans
      (afterKeyword?_eq_some_iff.mpr ⟨word', hword', hcs'⟩)
  rw [Option.some.injEq] at hafter
  have hsame : gaps = gaps' := by
    have htake := congrArg (List.takeWhile isGap) hafter
    rwa [hname.takeWhile gaps rest hgaps.2, hname.takeWhile gaps' rest' hgaps'.2,
      List.append_cancel_right_eq] at htake
  subst hsame
  rw [List.append_cancel_left_eq, List.append_cancel_left_eq] at hafter
  subst hafter
  rw [hcs, List.append_cancel_right_eq] at hcs'
  exact ⟨by rw [hcs'], rfl⟩

theorem lead?_eq_some_iff {name cs : List Char} (hname : Solid name) {n : Nat} :
    lead? name cs = some n ↔ ∃ lead rest, Defines name cs lead rest ∧ lead.length = n + 1 := by
  refine ⟨lead?_eq_some, ?_⟩
  rintro ⟨lead, rest, hdefines, hlength⟩
  cases hlead : lead? name cs with
  | none => exact absurd hdefines (lead?_eq_none hlead lead rest)
  | some k =>
      obtain ⟨lead', rest', hdefines', hlength'⟩ := lead?_eq_some hlead
      obtain ⟨rfl, -⟩ := hdefines.unique hname hdefines'
      rw [Option.some.injEq]
      omega

/-! ### Lines -/

/-- What may stand behind a line: nothing, or a line feed and more. -/
def Behind (tail : List Char) : Prop := tail = [] ∨ ∃ more, tail = '\n' :: more

theorem opens_append {rest tail : List Char} (htail : Behind tail) :
    opens (rest ++ tail) = opens rest := by
  induction rest with
  | nil =>
      obtain rfl | ⟨more, rfl⟩ := htail
      · rfl
      · simp [opens, isGap]
  | cons c rest ih =>
      simp only [opens, List.cons_append, List.dropWhile_cons] at ih ⊢
      split
      · exact ih
      · rfl

theorem notMem_lead {lead : List Char} (h : IsLead lead) : '\n' ∉ lead := by
  have hgap : ∀ gaps, IsGaps gaps → '\n' ∉ gaps := fun gaps hgaps hmem =>
    absurd (hgaps.2 _ hmem) (by decide)
  obtain ⟨word, gaps, rfl | ⟨gaps', hgaps', rfl⟩, hgaps, rfl⟩ := h
  · simp [hgap gaps hgaps]
  · simp [hgap gaps hgaps, hgap gaps' hgaps']

/-- A definition does not reach beyond its line. -/
theorem defines_append_iff {name line tail lead rest : List Char} (hname : '\n' ∉ name)
    (htail : Behind tail) : Defines name (line ++ tail) lead rest ↔
      ∃ rest', rest = rest' ++ tail ∧ Defines name line lead rest' := by
  constructor
  · rintro ⟨hparts, hlead, hopens⟩
    have hfront : '\n' ∉ lead ++ name := by simp [notMem_lead hlead, hname]
    rw [← List.append_assoc] at hparts
    obtain ⟨beyond, hbeyond, htail'⟩ | ⟨rest', rfl, rfl⟩ := List.append_eq_append_iff.mp hparts
    · obtain rfl : beyond = [] := by
        cases beyond with
        | nil => rfl
        | cons c beyond =>
            obtain rfl | ⟨more, rfl⟩ := htail
            · simp at htail'
            · rw [List.cons_append, List.cons.injEq] at htail'
              simp [hbeyond, ← htail'.1] at hfront
      rw [List.append_nil] at hbeyond
      rw [List.nil_append] at htail'
      subst htail' hbeyond
      have hopens' : opens ([] ++ tail) = opens [] := opens_append htail
      exact ⟨[], rfl, by simp, hlead, hopens'.symm.trans hopens⟩
    · rw [opens_append htail] at hopens
      exact ⟨rest', rfl, by simp, hlead, hopens⟩
  · rintro ⟨rest', rfl, rfl, hlead, hopens⟩
    exact ⟨by simp, hlead, by rw [opens_append htail, hopens]⟩

theorem lead?_append {name line tail : List Char} (hname : Solid name) (hfeed : '\n' ∉ name)
    (htail : Behind tail) : lead? name (line ++ tail) = lead? name line := by
  refine Option.ext fun n => ?_
  rw [lead?_eq_some_iff hname, lead?_eq_some_iff hname]
  simp only [defines_append_iff hfeed htail]
  constructor
  · rintro ⟨lead, _, ⟨rest, -, h⟩, hlength⟩
    exact ⟨lead, rest, h, hlength⟩
  · rintro ⟨lead, rest, h, hlength⟩
    exact ⟨lead, _, ⟨rest, rfl, h⟩, hlength⟩

/-- A line with its definition of `old` renamed, if it is one. -/
def renameLine (old new line : List Char) : List Char :=
  match lead? old line with
  | some n => line.take (n + 1) ++ (new ++ line.drop (n + 1 + old.length))
  | none => line

/-- A definition is renamed by putting the new name in the place of the old one. -/
theorem Defines.renameLine {old line lead rest : List Char} (hold : Solid old)
    (h : Defines old line lead rest) (new : List Char) :
    renameLine old new line = lead ++ (new ++ rest) := by
  obtain ⟨c, cs, rfl⟩ := h.isLead.exists_cons
  have hlead := (lead?_eq_some_iff hold).mpr ⟨_, rest, h, rfl⟩
  rw [Handler.renameLine, hlead]
  simp only [← List.length_cons (a := c), h.parts, List.take_left, ← List.drop_drop,
    List.drop_left]

/-- Every other line is left as it is. -/
theorem renameLine_of_not {old line : List Char}
    (h : ∀ lead rest, ¬ Defines old line lead rest) (new : List Char) :
    renameLine old new line = line := by
  cases hlead : lead? old line with
  | none => rw [renameLine, hlead]
  | some n =>
      obtain ⟨lead, rest, hdefines, -⟩ := lead?_eq_some hlead
      exact absurd hdefines (h lead rest)

/-- A line defines the name or does not. -/
theorem defines_cases (name line : List Char) :
    (∃ lead rest, Defines name line lead rest) ∨ ∀ lead rest, ¬ Defines name line lead rest := by
  by_cases h : ∃ lead rest, Defines name line lead rest
  · exact .inl h
  · exact .inr fun lead rest hdefines => h ⟨lead, rest, hdefines⟩

/-- Within a line nothing is renamed. -/
theorem renameFrom_inside {cs : List Char} (h : '\n' ∉ cs) (old new rest : List Char) :
    renameFrom old new false (cs ++ rest) = cs ++ renameFrom old new false rest := by
  induction cs with
  | nil => rfl
  | cons c cs ih =>
      rw [List.mem_cons, not_or] at h
      have hc : (c == '\n') = false := beq_eq_false_iff_ne.mpr (Ne.symm h.1)
      rw [List.cons_append, renameFrom]
      simp [hc, ih h.2]

theorem renameFrom_feed (old new more : List Char) :
    renameFrom old new false ('\n' :: more) = '\n' :: renameFrom old new true more := by
  rw [renameFrom]
  simp

/-- At the start of a line the line is renamed. -/
theorem renameFrom_wholeLine {old line tail : List Char} (hold : Solid old) (hfeed : '\n' ∉ old)
    (hline : '\n' ∉ line) (htail : Behind tail) (new : List Char) :
    renameFrom old new true (line ++ tail) =
      renameLine old new line ++ renameFrom old new false tail := by
  -- No name holds a line feed, so the line alone tells whether it defines the name.
  have hlead : lead? old (line ++ tail) = lead? old line := lead?_append hold hfeed htail
  obtain ⟨lead, rest, hdefines⟩ | hnot := defines_cases old line
  · obtain ⟨c, lead, rfl⟩ := hdefines.isLead.exists_cons
    have hsome : lead? old line = some lead.length :=
      (lead?_eq_some_iff hold).mpr ⟨_, rest, hdefines, rfl⟩
    have hparts := hdefines.parts
    have hrest : '\n' ∉ rest := by
      rw [hparts] at hline
      simp only [List.mem_append, not_or] at hline
      exact hline.2.2
    rw [hdefines.renameLine hold]
    rw [hsome, hparts, List.cons_append, List.cons_append] at hlead
    rw [hparts, List.cons_append, List.cons_append, renameFrom, if_pos rfl, hlead]
    simp [renameFrom_inside hrest]
  · rw [renameLine_of_not hnot]
    have hnone : lead? old line = none := by
      rw [Option.eq_none_iff_forall_ne_some]
      intro n hn
      obtain ⟨lead, rest, hdefines, -⟩ := lead?_eq_some hn
      exact hnot lead rest hdefines
    rw [hnone] at hlead
    cases line with
    | nil =>
        rw [List.nil_append] at hlead
        obtain rfl | ⟨more, rfl⟩ := htail
        · simp [renameFrom]
        · rw [renameFrom_feed, List.nil_append, renameFrom, if_pos rfl, hlead]
          rfl
    | cons c line =>
        rw [List.cons_append] at hlead
        rw [List.mem_cons, not_or] at hline
        have hc : (c == '\n') = false := beq_eq_false_iff_ne.mpr (Ne.symm hline.1)
        rw [List.cons_append, renameFrom, if_pos rfl, hlead, hc, renameFrom_inside hline.2]
        rfl

theorem renameFrom_lines {old : List Char} (hold : Solid old) (hfeed : '\n' ∉ old) (new : List Char)
    {lines : List (List Char)} (hlines : ∀ line ∈ lines, '\n' ∉ line) :
    renameFrom old new true (['\n'].intercalate lines) =
      ['\n'].intercalate (lines.map (renameLine old new)) := by
  induction lines with
  | nil => simp [renameFrom]
  | cons line rest ih =>
      rw [List.forall_mem_cons] at hlines
      cases rest with
      | nil =>
          have hline := renameFrom_wholeLine hold hfeed hlines.1 (.inl rfl) new
          simpa [renameFrom] using hline
      | cons next rest =>
          have hline : renameFrom old new true (line ++ '\n' :: ['\n'].intercalate (next :: rest)) =
              renameLine old new line ++
                renameFrom old new false ('\n' :: ['\n'].intercalate (next :: rest)) :=
            renameFrom_wholeLine hold hfeed hlines.1 (.inr ⟨_, rfl⟩) new
          rw [List.map_cons, List.map_cons, List.intercalate_cons_cons,
            List.intercalate_cons_cons, ← List.map_cons, ← ih hlines.2]
          rw [renameFrom_feed] at hline
          simpa using hline

/-! ### Texts -/

/-- The lines of a text, which line feeds separate. -/
def lines (code : String) : List (List Char) := code.toList.splitOn '\n'

/-- The text with these lines. -/
def ofLines (lines : List (List Char)) : String := String.ofList (['\n'].intercalate lines)

theorem ofLines_lines (code : String) : ofLines (lines code) = code := by
  rw [ofLines, lines, List.intercalate_splitOn, String.ofList_toList]

theorem lines_ofLines {ls : List (List Char)} (hne : ls ≠ []) (hfeed : ∀ line ∈ ls, '\n' ∉ line) :
    lines (ofLines ls) = ls := by
  rw [lines, ofLines, String.toList_ofList, List.splitOn_intercalate _ hfeed hne]

theorem lines_ne_nil (code : String) : lines code ≠ [] := List.splitOn_ne_nil _ _

theorem notMem_splitOn (cs : List Char) : ∀ line ∈ cs.splitOn '\n', '\n' ∉ line := by
  induction cs with
  | nil => simp
  | cons c cs ih =>
      rw [List.splitOn_cons_eq_if_modifyHead]
      split
      · simpa using ih
      · rename_i hc
        obtain ⟨line, ls, hls⟩ := List.exists_cons_of_ne_nil (List.splitOn_ne_nil '\n' cs)
        rw [hls, List.forall_mem_cons] at ih
        rw [hls, List.modifyHead_cons, List.forall_mem_cons, List.mem_cons, not_or]
        exact ⟨⟨fun h => hc (beq_iff_eq.mpr h.symm), ih.1⟩, ih.2⟩

theorem notMem_lines {code : String} : ∀ line ∈ lines code, '\n' ∉ line := notMem_splitOn _

/-- A text is renamed line by line. -/
theorem rename_eq_ofLines {old : String} (hold : Solid old.toList) (hfeed : '\n' ∉ old.toList)
    (code new : String) : rename code old new =
      ofLines ((lines code).map (renameLine old.toList new.toList)) := by
  rw [rename, ofLines, ← renameFrom_lines hold hfeed _ notMem_lines, lines,
    List.intercalate_splitOn]

/-! ### Renaming back -/

theorem notMem_renameLine {old new line : List Char} (hold : Solid old) (hnew : '\n' ∉ new)
    (hline : '\n' ∉ line) : '\n' ∉ renameLine old new line := by
  obtain ⟨lead, rest, hdefines⟩ | hnot := defines_cases old line
  · rw [hdefines.renameLine hold]
    rw [hdefines.parts] at hline
    simp only [List.mem_append, not_or] at hline ⊢
    exact ⟨hline.1, hnew, hline.2.2⟩
  · rwa [renameLine_of_not hnot]

theorem lines_rename {old new : String} (hold : Solid old.toList) (hfeed : '\n' ∉ old.toList)
    (hnew : '\n' ∉ new.toList) (code : String) :
    lines (rename code old new) = (lines code).map (renameLine old.toList new.toList) := by
  rw [rename_eq_ofLines hold hfeed, lines_ofLines]
  · simpa using lines_ne_nil code
  · rw [List.forall_mem_map]
    exact fun line hline => notMem_renameLine hold hnew (notMem_lines line hline)

/-- A definition of `old` becomes one of `new`, and one of `old` again; where there is none of
`new`, no other line becomes anything else. -/
theorem renameLine_back {old new line : List Char} (hold : Solid old) (hnew : Solid new)
    (hnone : ∀ lead rest, ¬ Defines new line lead rest) :
    renameLine new old (renameLine old new line) = line := by
  obtain ⟨lead, rest, hdefines⟩ | hnot := defines_cases old line
  · have hrenamed : Defines new (lead ++ (new ++ rest)) lead rest :=
      ⟨rfl, hdefines.isLead, hdefines.opens⟩
    rw [hdefines.renameLine hold, hrenamed.renameLine hnew, hdefines.parts]
  · rw [renameLine_of_not hnot, renameLine_of_not hnone]

/-- A text without a definition of the new name is restored by renaming back. -/
theorem rename_back {old new : String} (hold : Solid old.toList) (hnew : Solid new.toList)
    (holdFeed : '\n' ∉ old.toList) (hnewFeed : '\n' ∉ new.toList) {code : String}
    (hnone : ∀ line ∈ lines code, ∀ lead rest, ¬ Defines new.toList line lead rest) :
    rename (rename code old new) new old = code := by
  have hback : (lines code).map
      (renameLine new.toList old.toList ∘ renameLine old.toList new.toList) = (lines code).map id :=
    List.map_congr_left fun line hline => renameLine_back hold hnew (hnone line hline)
  rw [rename_eq_ofLines hnew hnewFeed, lines_rename hold holdFeed hnewFeed, List.map_map, hback,
    List.map_id, ofLines_lines]

end BlockWorkbench.Handler
