import BlockWorkbench.Order.Check
import BlockWorkbench.Proofs.OrderOutcome

/-!
Orders are repeatable: they depend on which links there are, not on how these are listed. A round
only asks which names stand before and behind others, and sorts what it takes off, so links that
are listed in another order or more than once go through the same rounds. Without items, the names
that nothing waits for stand as they are first mentioned; the way in which the links are listed
decides no more than that.
-/

namespace BlockWorkbench.Order

variable {α : Type}

/-- Comparing puts any names in a row: besides, names that are at most each other are the same. -/
structure Ranks (atMost : α → α → Bool) : Prop extends Compares atMost where
  antisymm : ∀ a b, atMost a b → atMost b a → a = b

variable {atMost : α → α → Bool} {links links' : List (Link α)}

/-- There is one way to list the names of a kind in ascending order. -/
theorem Sorts.unique (hle : Ranks atMost) {kind : α → Prop} {names names' : List α}
    (h : Sorts atMost kind names) (h' : Sorts atMost kind names') : names = names' := by
  have hperm : names.Perm names' :=
    (List.perm_ext_iff_of_nodup h.nodup h'.nodup).mpr fun a =>
      (h.mem_iff a).trans (h'.mem_iff a).symm
  exact hperm.eq_of_pairwise (fun a b _ _ => hle.antisymm a b) h.ascending h'.ascending

theorem ascending_congr [BEq α] [LawfulBEq α] (hle : Ranks atMost) {names names' : List α}
    (h : ∀ a, a ∈ names ↔ a ∈ names') : ascending atMost names = ascending atMost names' :=
  (sorts_ascending hle.toCompares h).unique hle (sorts_ascending hle.toCompares fun _ => Iff.rfl)

section Congruence

variable (h : ∀ l, l ∈ links ↔ l ∈ links')

include h

theorem links_eq_nil_congr : links = [] ↔ links' = [] := by
  simp only [List.eq_nil_iff_forall_not_mem, h]

theorem before_congr (a : α) : a ∈ links.map (·.before) ↔ a ∈ links'.map (·.before) := by
  simp only [List.mem_map, h]

theorem mentions_congr (a : α) : Mentions links a ↔ Mentions links' a := by
  simp only [Mentions, h]

variable [BEq α] [Hashable α] [LawfulBEq α] [LawfulHashable α]

theorem ends_congr (b : α) : b ∈ ends links ↔ b ∈ ends links' := by
  simp only [mem_ends, List.mem_map, h]

theorem ends_eq_nil_congr : ends links = [] ↔ ends links' = [] := by
  simp only [List.eq_nil_iff_forall_not_mem, ends_congr h]

theorem inner_congr (l : Link α) : l ∈ inner links ↔ l ∈ inner links' := by
  simp only [mem_inner, h, ends_congr h]

theorem released_congr (a : α) : a ∈ released links ↔ a ∈ released links' := by
  simp only [mem_released, Precedes, h, ends_congr h, before_congr (inner_congr h)]

end Congruence

variable [BEq α] [Hashable α] [LawfulBEq α] [LawfulHashable α]

/-- The search goes through the same rounds, and stops at the same names if it does. -/
theorem fromEnd_congr (hle : Ranks atMost) (h : ∀ l, l ∈ links ↔ l ∈ links') :
    fromEnd atMost links = fromEnd atMost links' := by
  induction links using fromEnd.induct generalizing links' with
  | case1 links hempty =>
      rw [List.isEmpty_iff] at hempty
      subst hempty
      rw [(links_eq_nil_congr h).mp rfl]
  | case2 links hempty hends =>
      have hne : links ≠ [] := by simpa using hempty
      have hne' : links' ≠ [] := mt (links_eq_nil_congr h).mpr hne
      rw [fromEnd_stuck hne hends, fromEnd_stuck hne' ((ends_eq_nil_congr h).mp hends),
        ascending_congr hle (before_congr h)]
  | case3 links hempty hends ih =>
      have hne : links ≠ [] := by simpa using hempty
      have hne' : links' ≠ [] := mt (links_eq_nil_congr h).mpr hne
      rw [fromEnd_round hne hends, fromEnd_round hne' (mt (ends_eq_nil_congr h).mpr hends),
        ih (inner_congr h), ascending_congr hle (released_congr h)]

theorem processingOrder_congr (hle : Ranks atMost) (h : ∀ l, l ∈ links ↔ l ∈ links')
    (items : List α) :
    processingOrder atMost links (some items) = processingOrder atMost links' (some items) := by
  have hfound := fromEnd_congr hle h
  cases hfound' : fromEnd atMost links' with
  | error fault =>
      rw [processingOrder_cyclic (hfound.trans hfound'), processingOrder_cyclic hfound']
  | ok later =>
      by_cases hitems : ∀ a, Mentions links' a → a ∈ items
      · have hitems' : ∀ a, Mentions links a → a ∈ items := fun a ha =>
          hitems a ((mentions_congr h a).mp ha)
        have hrest : items.filter (!(links.map (·.before)).contains ·) =
            items.filter (!(links'.map (·.before)).contains ·) := by
          refine List.filter_congr fun a _ => ?_
          rw [Bool.eq_iff_iff]
          simp only [Bool.not_eq_true', Bool.eq_false_iff, ne_eq, List.contains_iff_mem,
            before_congr h]
        rw [processingOrder_within (hfound.trans hfound') hitems',
          processingOrder_within hfound' hitems, hrest]
      · have hitems' : ¬ ∀ a, Mentions links a → a ∈ items := fun hall =>
          hitems fun a ha => hall a ((mentions_congr h a).mpr ha)
        have hunknown : ∀ a, a ∈ (mentioned links).filter (!items.contains ·) ↔
            a ∈ (mentioned links').filter (!items.contains ·) := by
          simp only [List.mem_filter, mem_mentioned, h, implies_true]
        rw [processingOrder_outside (hfound.trans hfound') hitems',
          processingOrder_outside hfound' hitems, ascending_congr hle hunknown]

/-- Without items, an order has the names that others wait for in front, and the others behind. -/
theorem processingOrder_mentioned {later : List α} (h : fromEnd atMost links = .ok later) :
    processingOrder atMost links none =
      .ok (later.reverse ++ (mentioned links).filter (!(links.map (·.before)).contains ·)) := by
  rw [processingOrder_none]
  exact processingOrder_within h fun a ha => mem_mentioned.mpr ha

/-- The same links give the same order of given items, or the same fault. Without items they give
the same fault, or orders in which the names that others wait for stand in front in the same way
and the same names follow. -/
theorem same_links_same_order (hle : Ranks atMost) (h : ∀ l, l ∈ links ↔ l ∈ links') :
    (∀ items : List α, processingOrder atMost links (some items) =
      processingOrder atMost links' (some items)) ∧
    ((∃ fault, processingOrder atMost links none = .error fault ∧
        processingOrder atMost links' none = .error fault) ∨
      ∃ front rest rest', processingOrder atMost links none = .ok (front ++ rest) ∧
        processingOrder atMost links' none = .ok (front ++ rest') ∧
        (∀ a, a ∈ front ↔ a ∈ links.map (·.before)) ∧ rest.Perm rest' ∧
        (front ++ rest).Nodup) := by
  refine ⟨processingOrder_congr hle h, ?_⟩
  have hfound := fromEnd_congr hle h
  cases hfound' : fromEnd atMost links' with
  | error fault =>
      exact .inl ⟨fault, processingOrder_cyclic (hfound.trans hfound'),
        processingOrder_cyclic hfound'⟩
  | ok later =>
      obtain ⟨-, hmem, -, -⟩ := fromEnd_spec (hfound.trans hfound')
      have horder := processingOrder_mentioned (hfound.trans hfound')
      have hnodup : (mentioned links).Nodup := firstMentions_mentioned.nodup
      have hnodup' : (mentioned links').Nodup := firstMentions_mentioned.nodup
      have hperm := (processingOrder_spec hnodup (processingOrder_none.symm.trans horder)).1
      refine .inr ⟨later.reverse, _, _, horder, processingOrder_mentioned hfound', ?_, ?_,
        hperm.nodup_iff.mpr hnodup⟩
      · simpa using hmem
      · refine (List.perm_ext_iff_of_nodup (hnodup.filter _) (hnodup'.filter _)).mpr fun a => ?_
        simp only [List.mem_filter, mem_mentioned, h, Bool.not_eq_true', Bool.eq_false_iff, ne_eq,
          List.contains_iff_mem, before_congr h]

theorem ranks_texts : Ranks Points.atMost where
  toCompares := compares_texts
  antisymm s t := by
    induction s generalizing t with
    | nil => cases t <;> simp [Points.atMost]
    | cons a s ih =>
        cases t with
        | nil => simp [Points.atMost]
        | cons b t =>
            simp only [Points.atMost, Bool.or_eq_true, Bool.and_eq_true, decide_eq_true_eq,
              beq_iff_eq, List.cons.injEq]
            rintro (hlt | ⟨rfl, hst⟩) (hgt | ⟨heq, hts⟩)
            · omega
            · exact absurd (heq ▸ hlt) (lt_irrefl _)
            · exact absurd hgt (lt_irrefl _)
            · exact ⟨rfl, ih t hst hts⟩

theorem ranks_names : Ranks nameAtMost where
  trans a b c := by simpa [nameAtMost] using le_trans
  total a b := by simpa [nameAtMost] using le_total a b
  antisymm a b := by simpa [nameAtMost] using le_antisymm

/-- Three links, and the same listed the other way round with one of them twice: both are
ordered. -/
theorem same_links_same_order_reversed :
    (Ranks Points.atMost ∧ Ranks nameAtMost) ∧
    (∀ l : Link Points, l ∈ [⟨"a", "c"⟩, ⟨"b", "c"⟩, ⟨"a", "d"⟩] ↔
      l ∈ [⟨"a", "d"⟩, ⟨"b", "c"⟩, ⟨"a", "c"⟩, ⟨"b", "c"⟩]) ∧
    ∃ front rest rest' : List Points,
      processingOrder Points.atMost [⟨"a", "c"⟩, ⟨"b", "c"⟩, ⟨"a", "d"⟩] none =
        .ok (front ++ rest) ∧
      processingOrder Points.atMost [⟨"a", "d"⟩, ⟨"b", "c"⟩, ⟨"a", "c"⟩, ⟨"b", "c"⟩] none =
        .ok (front ++ rest') ∧
      rest.Perm rest' := by
  have h : ∀ l : Link Points, l ∈ [⟨"a", "c"⟩, ⟨"b", "c"⟩, ⟨"a", "d"⟩] ↔
      l ∈ [⟨"a", "d"⟩, ⟨"b", "c"⟩, ⟨"a", "c"⟩, ⟨"b", "c"⟩] := by
    intro l
    simp only [List.mem_cons, List.not_mem_nil, or_false]
    tauto
  have hacyclic : Acyclic ([⟨"a", "c"⟩, ⟨"b", "c"⟩, ⟨"a", "d"⟩] : List (Link Points)) := by
    intro x hx
    obtain ⟨y, hxy, -⟩ := Relation.TransGen.head'_iff.mp hx
    obtain ⟨z, -, hzx⟩ := Relation.TransGen.tail'_iff.mp hx
    have hbefore : x ∈ (["a", "b", "a"] : List Points) := hxy.before_mem
    have hafter : x ∈ (["c", "c", "d"] : List Points) := List.mem_map_of_mem (f := Link.after) hzx
    have hdisjoint :
        ∀ x ∈ (["a", "b", "a"] : List Points), x ∉ (["c", "c", "d"] : List Points) := by
      decide
    exact hdisjoint x hbefore hafter
  obtain ⟨order, horder⟩ : ∃ order, fromEnd Points.atMost _ = .ok order := fromEnd_isOk hacyclic
  obtain ⟨fault, hfault, -⟩ | ⟨front, rest, rest', hfirst, hsecond, -, hperm, -⟩ :=
    (same_links_same_order ranks_texts h).2
  · rw [processingOrder_mentioned horder] at hfault
    cases hfault
  · exact ⟨⟨ranks_texts, ranks_names⟩, h, front, rest, rest', hfirst, hsecond, hperm⟩

end BlockWorkbench.Order
