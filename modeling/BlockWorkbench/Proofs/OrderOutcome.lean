import BlockWorkbench.Proofs.ProcessingOrder

/-!
What ordering linked items comes to. The links alone decide whether they are cyclic, and the
fault then names what leads to a cycle: a round takes off only names that lead to none, and a name
that is left when nothing can be taken off leads to one. Otherwise the items decide, and the order
is the one that is asked for, with the items that nothing waits for at its end as they were given.
-/

namespace BlockWorkbench.Order

variable {α : Type}

/-- A name stands in one of the links. -/
def Mentions (links : List (Link α)) (a : α) : Prop := ∃ l ∈ links, a = l.before ∨ a = l.after

/-- `names` are the names of a kind, each once and in ascending order. -/
structure Sorts (atMost : α → α → Bool) (kind : α → Prop) (names : List α) : Prop where
  mem_iff : ∀ a, a ∈ names ↔ kind a
  nodup : names.Nodup
  ascending : names.Pairwise fun a b => atMost a b

/-- `names` are the names in the links, each once and in the order of their first mention: behind
the first mention of one and before that of the next the links can be cut. -/
structure FirstMentions (links : List (Link α)) (names : List α) : Prop where
  mem_iff : ∀ a, a ∈ names ↔ Mentions links a
  nodup : names.Nodup
  inOrder : names.Pairwise fun a b =>
    ∃ front, front <+: links.flatMap (fun l => [l.before, l.after]) ∧ a ∈ front ∧ b ∉ front

/-- Any two names can be compared, and comparing is transitive. -/
structure Compares (atMost : α → α → Bool) : Prop where
  trans : ∀ a b c, atMost a b → atMost b c → atMost a c
  total : ∀ a b, atMost a b || atMost b a

/-- An order of the items that the links ask for. Items that nothing waits for stand at its end, as
they were given. -/
structure Meets [BEq α] (links : List (Link α)) (items order : List α) : Prop where
  perm : order.Perm items
  before : ∀ l ∈ links, order.idxOf l.before < order.idxOf l.after
  rest : ∃ front, order = front ++ items.filter (!(links.map (·.before)).contains ·) ∧
    ∀ a ∈ front, a ∈ links.map (·.before)

/-- What ordering distinct items comes to. -/
structure Settles [BEq α] (atMost : α → α → Bool) (links : List (Link α)) (items : List α)
    (outcome : Except (Fault α) (List α)) : Prop where
  cyclic_iff : (∃ names, outcome = .error (.cyclic names)) ↔
    ∃ a, Relation.TransGen (Precedes links) a a
  cyclic_names : ∀ names, outcome = .error (.cyclic names) →
    Sorts atMost (LeadsToCycle links) names
  outside_iff : (∃ names, outcome = .error (.outside names)) ↔
    (∀ a, ¬ Relation.TransGen (Precedes links) a a) ∧ ∃ a, Mentions links a ∧ a ∉ items
  outside_names : ∀ names, outcome = .error (.outside names) →
    Sorts atMost (fun a => Mentions links a ∧ a ∉ items) names
  ordered_iff : (∃ order, outcome = .ok order) ↔
    (∀ a, ¬ Relation.TransGen (Precedes links) a a) ∧ ∀ a, Mentions links a → a ∈ items
  ordered : ∀ order, outcome = .ok order → Meets links items order

/-- Distinct names keep the order of their first places. -/
theorem eraseDups_inOrder [BEq α] [LawfulBEq α] (names : List α) :
    names.eraseDups.Pairwise fun a b => ∃ front, front <+: names ∧ a ∈ front ∧ b ∉ front := by
  match names with
  | [] => exact List.Pairwise.nil
  | c :: rest =>
      rw [List.eraseDups_cons, List.pairwise_cons]
      have hother : ∀ b, b ∈ (rest.filter fun b => !b == c).eraseDups → b ≠ c := by
        intro b hb
        simpa using (List.mem_filter.mp (List.mem_eraseDups.mp hb)).2
      refine ⟨fun b hb => ⟨[c], by simp, by simp, by simpa using hother b hb⟩, ?_⟩
      refine (eraseDups_inOrder (rest.filter fun b => !b == c)).imp_of_mem fun {a b} _ hb h => ?_
      obtain ⟨_, hfront, hin, hout⟩ := h
      obtain ⟨front, hprefix, rfl⟩ := List.prefix_filter_iff.mp hfront
      refine ⟨c :: front, by simpa using hprefix,
        List.mem_cons_of_mem _ (List.mem_filter.mp hin).1, ?_⟩
      rintro (_ | ⟨_, hmem⟩)
      · exact hother c hb rfl
      · exact hout (List.mem_filter.mpr ⟨hmem, by simpa using hother b hb⟩)
termination_by names.length
decreasing_by
  have := List.length_filter_le (fun b => !b == c) rest
  simp only [List.length_cons]
  omega

variable {links : List (Link α)} {atMost : α → α → Bool}

theorem firstMentions_mentioned [BEq α] [LawfulBEq α] : FirstMentions links (mentioned links) :=
  ⟨fun _ => mem_mentioned, nodup_eraseDups _, eraseDups_inOrder _⟩

theorem sorts_ascending [BEq α] [LawfulBEq α] (hle : Compares atMost) {kind : α → Prop}
    {names : List α} (h : ∀ a, a ∈ names ↔ kind a) :
    Sorts atMost kind (ascending atMost names) :=
  ⟨fun a => mem_ascending.trans (h a), nodup_ascending names,
    List.pairwise_mergeSort hle.trans hle.total _⟩

theorem not_acyclic_iff : ¬ Acyclic links ↔ ∃ a, Relation.TransGen (Precedes links) a a := by
  simp [Acyclic]

theorem LeadsToCycle.before_mem {a : α} (h : LeadsToCycle links a) :
    a ∈ links.map (·.before) := by
  obtain ⟨c, hac, hc⟩ := h
  obtain ⟨b, hab, -⟩ := Relation.TransGen.head'_iff.mp (Relation.TransGen.trans_right hac hc)
  exact hab.before_mem

theorem unknown_isEmpty_iff [BEq α] [LawfulBEq α] {items : List α} :
    ((mentioned links).filter (!items.contains ·)).isEmpty ↔ ∀ a, Mentions links a → a ∈ items := by
  simp [List.isEmpty_iff, List.filter_eq_nil_iff, mem_mentioned, Mentions]

/-- Distinct items in an order that respects the links: the first name of a link is found before
the second. -/
theorem idxOf_lt_of_respects [BEq α] [LawfulBEq α] {items order : List α} (hacyclic : Acyclic links)
    (hitems : ∀ a, Mentions links a → a ∈ items) (hperm : order.Perm items)
    (hrespects : Respects links order) {l : Link α} (hl : l ∈ links) :
    order.idxOf l.before < order.idxOf l.after := by
  have hmem : ∀ a, Mentions links a → order.idxOf a < order.length := fun a ha =>
    List.idxOf_lt_length_iff.mpr (hperm.mem_iff.mpr (hitems a ha))
  have hbefore := hmem l.before ⟨l, hl, .inl rfl⟩
  have hafter := hmem l.after ⟨l, hl, .inr rfl⟩
  rcases lt_trichotomy (order.idxOf l.before) (order.idxOf l.after) with hlt | heq | hgt
  · exact hlt
  · have hsame : l.before = l.after := by
      rw [← List.getElem_idxOf hbefore, ← List.getElem_idxOf hafter]
      simp only [heq]
    have hself : Precedes links l.before l.before := by
      have hl : Precedes links l.before l.after := hl
      rwa [← hsame] at hl
    exact absurd (.single hself) (hacyclic l.before)
  · have hnot := List.pairwise_iff_getElem.mp hrespects _ _ hafter hbefore hgt
    rw [List.getElem_idxOf, List.getElem_idxOf] at hnot
    exact absurd hl hnot

theorem settles_cyclic [BEq α] {items names : List α} (hcyclic : ¬ Acyclic links)
    (hnames : Sorts atMost (LeadsToCycle links) names) :
    Settles atMost links items (.error (.cyclic names)) where
  cyclic_iff := ⟨fun _ => not_acyclic_iff.mp hcyclic, fun _ => ⟨names, rfl⟩⟩
  cyclic_names := by
    rintro _ ⟨⟩
    exact hnames
  outside_iff := ⟨(fun ⟨_, h⟩ => nomatch h), fun h => absurd h.1 hcyclic⟩
  outside_names := nofun
  ordered_iff := ⟨(fun ⟨_, h⟩ => nomatch h), fun h => absurd h.1 hcyclic⟩
  ordered := nofun

theorem settles_outside [BEq α] {items names : List α} (hacyclic : Acyclic links)
    (hmentioned : ¬ ∀ a, Mentions links a → a ∈ items)
    (hnames : Sorts atMost (fun a => Mentions links a ∧ a ∉ items) names) :
    Settles atMost links items (.error (.outside names)) where
  cyclic_iff := ⟨(fun ⟨_, h⟩ => nomatch h), fun h => absurd hacyclic (not_acyclic_iff.mpr h)⟩
  cyclic_names := nofun
  outside_iff := by
    push Not at hmentioned
    exact ⟨fun _ => ⟨hacyclic, hmentioned⟩, fun _ => ⟨names, rfl⟩⟩
  outside_names := by
    rintro _ ⟨⟩
    exact hnames
  ordered_iff := ⟨(fun ⟨_, h⟩ => nomatch h), fun h => absurd h.2 hmentioned⟩
  ordered := nofun

theorem settles_ordered [BEq α] {items order : List α} (hacyclic : Acyclic links)
    (hmentioned : ∀ a, Mentions links a → a ∈ items) (horder : Meets links items order) :
    Settles atMost links items (.ok order) where
  cyclic_iff := ⟨(fun ⟨_, h⟩ => nomatch h), fun h => absurd hacyclic (not_acyclic_iff.mpr h)⟩
  cyclic_names := nofun
  outside_iff := ⟨(fun ⟨_, h⟩ => nomatch h), fun ⟨_, a, ha, hout⟩ => absurd (hmentioned a ha) hout⟩
  outside_names := nofun
  ordered_iff := ⟨fun _ => ⟨hacyclic, hmentioned⟩, fun _ => ⟨order, rfl⟩⟩
  ordered := by
    rintro _ ⟨⟩
    exact horder

variable [BEq α] [Hashable α] [LawfulBEq α] [LawfulHashable α]

/-- A round takes off only names that lead to no cycle, and leaves the others leading to theirs. -/
theorem leadsToCycle_inner {a : α} : LeadsToCycle (inner links) a ↔ LeadsToCycle links a := by
  constructor
  · rintro ⟨c, hac, hc⟩
    exact ⟨c, Relation.ReflTransGen.mono (fun _ _ => Precedes.of_inner) _ _ hac,
      Relation.TransGen.mono (fun _ _ => Precedes.of_inner) _ _ hc⟩
  · rintro ⟨c, hac, hc⟩
    obtain ⟨b, hcb, -⟩ := Relation.TransGen.head'_iff.mp hc
    refine ⟨c, ?_, transGen_inner hc hcb.before_mem⟩
    rcases Relation.reflTransGen_iff_eq_or_transGen.mp hac with rfl | hac
    · exact .refl
    · exact (transGen_inner hac hcb.before_mem).to_reflTransGen

/-- The search fails only by a cycle. The names left are then those that lead to one. -/
theorem fromEnd_fault {fault : Fault α} (h : fromEnd atMost links = .error fault) :
    ∃ names, fault = .cyclic (ascending atMost names) ∧
      ∀ a, a ∈ names ↔ LeadsToCycle links a := by
  induction links using fromEnd.induct with
  | case1 links hempty =>
      rw [List.isEmpty_iff] at hempty
      rw [hempty, fromEnd_nil] at h
      cases h
  | case2 links hempty hends =>
      rw [fromEnd_stuck (by simpa using hempty) hends] at h
      cases h
      exact ⟨_, rfl, fun a => ⟨leadsToCycle_of_stuck hends, LeadsToCycle.before_mem⟩⟩
  | case3 links hempty hends ih =>
      rw [fromEnd_round (by simpa using hempty) hends] at h
      cases hlater : fromEnd atMost (inner links) with
      | ok later =>
          rw [hlater] at h
          cases h
      | error fault' =>
          rw [hlater] at h
          cases h
          obtain ⟨names, hfault, hnames⟩ := ih hlater
          exact ⟨names, hfault, fun a => (hnames a).trans leadsToCycle_inner⟩

theorem processingOrder_cyclic {items : Option (List α)} {fault : Fault α}
    (h : fromEnd atMost links = .error fault) :
    processingOrder atMost links items = .error fault := by
  simp [processingOrder, h]

theorem processingOrder_within {items later : List α} (h : fromEnd atMost links = .ok later)
    (hitems : ∀ a, Mentions links a → a ∈ items) :
    processingOrder atMost links (some items) =
      .ok (later.reverse ++ items.filter (!(links.map (·.before)).contains ·)) := by
  have hmem := (fromEnd_spec h).2.1
  have hrest : items.filter (!later.reverse.contains ·) =
      items.filter (!(links.map (·.before)).contains ·) := by
    refine List.filter_congr fun a _ => ?_
    rw [List.contains_reverse, Bool.eq_iff_iff]
    simp only [Bool.not_eq_true', Bool.eq_false_iff, ne_eq, List.contains_iff_mem, hmem]
  simp only [processingOrder, h, ok_bind, hrest, unknown_isEmpty_iff.mpr hitems, if_true]

theorem processingOrder_outside {items later : List α} (h : fromEnd atMost links = .ok later)
    (hitems : ¬ ∀ a, Mentions links a → a ∈ items) :
    processingOrder atMost links (some items) =
      .error (.outside (ascending atMost ((mentioned links).filter (!items.contains ·)))) := by
  have hunknown := mt unknown_isEmpty_iff.mp hitems
  simp only [processingOrder, h, ok_bind, if_neg hunknown]

/-- Without items, the names in the links are ordered. -/
theorem processingOrder_none :
    processingOrder atMost links none = processingOrder atMost links (some (mentioned links)) := by
  simp [processingOrder]

theorem meets_order {items later : List α} (hitems : items.Nodup)
    (hmentioned : ∀ a, Mentions links a → a ∈ items) (h : fromEnd atMost links = .ok later) :
    Meets links items (later.reverse ++ items.filter (!(links.map (·.before)).contains ·)) := by
  obtain ⟨-, hmem, -, hacyclic⟩ := fromEnd_spec h
  obtain ⟨hperm, hrespects⟩ := processingOrder_spec hitems (processingOrder_within h hmentioned)
  refine ⟨hperm, fun l hl => idxOf_lt_of_respects hacyclic hmentioned hperm hrespects hl,
    later.reverse, rfl, fun a ha => ?_⟩
  exact (hmem a).mp (List.mem_reverse.mp ha)

theorem settles_items (hle : Compares atMost) {items : List α} (hitems : items.Nodup) :
    Settles atMost links items (processingOrder atMost links (some items)) := by
  cases hfound : fromEnd atMost links with
  | error fault =>
      obtain ⟨names, rfl, hnames⟩ := fromEnd_fault hfound
      have hcyclic : ¬ Acyclic links := by
        intro hacyclic
        obtain ⟨order, horder⟩ : ∃ order, fromEnd atMost links = .ok order := fromEnd_isOk hacyclic
        rw [hfound] at horder
        cases horder
      rw [processingOrder_cyclic hfound]
      exact settles_cyclic hcyclic (sorts_ascending hle hnames)
  | ok later =>
      have hacyclic : Acyclic links := (fromEnd_spec hfound).2.2.2
      by_cases hmentioned : ∀ a, Mentions links a → a ∈ items
      · rw [processingOrder_within hfound hmentioned]
        exact settles_ordered hacyclic hmentioned (meets_order hitems hmentioned hfound)
      · rw [processingOrder_outside hfound hmentioned]
        refine settles_outside hacyclic hmentioned (sorts_ascending hle fun a => ?_)
        simp [List.mem_filter, mem_mentioned, Mentions]

/-- Distinct items are ordered as their links ask, or the fault names exactly what stands against
it. Without items, the names in the links are ordered, as they are first mentioned. -/
theorem processingOrder_settles (hle : Compares atMost) (links : List (Link α)) :
    (∀ items : List α, items.Nodup →
      Settles atMost links items (processingOrder atMost links (some items))) ∧
    ∃ names, FirstMentions links names ∧
      Settles atMost links names (processingOrder atMost links none) := by
  refine ⟨fun items => settles_items hle, mentioned links, firstMentions_mentioned, ?_⟩
  rw [processingOrder_none]
  exact settles_items hle firstMentions_mentioned.nodup

theorem atMost_total (s t : Points) : Points.atMost s t || Points.atMost t s := by
  induction s generalizing t with
  | nil => simp [Points.atMost]
  | cons a s ih =>
      cases t with
      | nil => simp [Points.atMost]
      | cons b t =>
          rcases lt_trichotomy a.val b.val with hlt | heq | hgt
          · simp [Points.atMost, hlt]
          · obtain rfl : a = b := Fin.ext heq
            simpa [Points.atMost] using ih t
          · simp [Points.atMost, hgt]

theorem atMost_trans {s t u : Points} (hst : Points.atMost s t) (htu : Points.atMost t u) :
    Points.atMost s u := by
  induction s generalizing t u with
  | nil => simp [Points.atMost]
  | cons a s ih =>
      cases t with
      | nil => simp [Points.atMost] at hst
      | cons b t =>
          cases u with
          | nil => simp [Points.atMost] at htu
          | cons c u =>
              simp only [Points.atMost, Bool.or_eq_true, Bool.and_eq_true, decide_eq_true_eq,
                beq_iff_eq] at hst htu ⊢
              rcases hst with hab | ⟨rfl, hst⟩
              · rcases htu with hbc | ⟨rfl, -⟩
                · exact .inl (hab.trans hbc)
                · exact .inl hab
              · exact htu.imp_right fun ⟨hac, htu⟩ => ⟨hac, ih hst htu⟩

/-- Texts are compared by their code points. -/
theorem compares_texts : Compares Points.atMost :=
  ⟨fun _ _ _ => atMost_trans, atMost_total⟩

/-- A diamond of names, and one that nothing is linked to. -/
theorem processingOrder_settles_diamond :
    (Compares Points.atMost ∧ (["d", "e", "c", "b", "a"] : List Points).Nodup) ∧
    Settles Points.atMost [⟨"a", "b"⟩, ⟨"a", "c"⟩, ⟨"b", "d"⟩, ⟨"c", "d"⟩]
      ["d", "e", "c", "b", "a"]
      (processingOrder Points.atMost [⟨"a", "b"⟩, ⟨"a", "c"⟩, ⟨"b", "d"⟩, ⟨"c", "d"⟩]
        (some ["d", "e", "c", "b", "a"])) :=
  ⟨⟨compares_texts, by decide⟩, (processingOrder_settles compares_texts _).1 _ (by decide)⟩

end BlockWorkbench.Order
