import BlockWorkbench.Proofs.Outcome

/-!
Orders of linked items. An order is found exactly if the links have no cycle and stay among the
items; it then has every item once, and no item stands before one that it waits for. The lemmas
on the way say what one round takes off: an item is taken off only when nothing left waits for it,
so a round keeps every link that leads to an item still needed by another.
-/

namespace BlockWorkbench.Order

variable {α : Type}

/-- One name is needed before another. -/
def Precedes (links : List (Link α)) (a b : α) : Prop := ⟨a, b⟩ ∈ links

/-- No name is needed before itself, neither directly nor through others. -/
def Acyclic (links : List (Link α)) : Prop := ∀ a, ¬ Relation.TransGen (Precedes links) a a

/-- From the name `a` a name is reached that is needed before itself. -/
def LeadsToCycle (links : List (Link α)) (a : α) : Prop :=
  ∃ c, Relation.ReflTransGen (Precedes links) a c ∧ Relation.TransGen (Precedes links) c c

/-- No name stands before one that is needed before it. -/
def Respects (links : List (Link α)) (order : List α) : Prop :=
  order.Pairwise fun a b => ¬ Precedes links b a

variable {links : List (Link α)}

theorem Precedes.before_mem {a b : α} (h : Precedes links a b) : a ∈ links.map (·.before) :=
  List.mem_map.mpr ⟨_, h, rfl⟩

theorem LeadsToCycle.head {a b : α} (h : LeadsToCycle links b) (hab : Precedes links a b) :
    LeadsToCycle links a := by
  obtain ⟨c, hbc, hc⟩ := h
  exact ⟨c, .head hab hbc, hc⟩

theorem LeadsToCycle.not_acyclic {a : α} (h : LeadsToCycle links a) : ¬ Acyclic links :=
  fun hacyclic => h.elim fun c hc => hacyclic c hc.2

theorem nodup_eraseDups [BEq α] [LawfulBEq α] (names : List α) : names.eraseDups.Nodup := by
  match names with
  | [] => exact List.nodup_nil
  | a :: rest =>
      rw [List.eraseDups_cons, List.nodup_cons, List.mem_eraseDups]
      exact ⟨by simp, nodup_eraseDups _⟩
termination_by names.length
decreasing_by
  have := List.length_filter_le (fun b => !b == a) rest
  simp only [List.length_cons]
  omega

theorem mem_mentioned [BEq α] [LawfulBEq α] {a : α} :
    a ∈ mentioned links ↔ ∃ l ∈ links, a = l.before ∨ a = l.after := by
  simp [mentioned]

section Ascending

variable [BEq α] [LawfulBEq α] {atMost : α → α → Bool}

theorem mem_ascending {a : α} {names : List α} : a ∈ ascending atMost names ↔ a ∈ names := by
  simp [ascending]

theorem nodup_ascending (names : List α) : (ascending atMost names).Nodup :=
  (List.mergeSort_perm ..).nodup_iff.mpr (nodup_eraseDups names)

end Ascending

variable [BEq α] [Hashable α] [LawfulBEq α] [LawfulHashable α]

theorem mem_ends {b : α} :
    b ∈ ends links ↔ b ∈ links.map (·.after) ∧ b ∉ links.map (·.before) := by
  simp [ends, List.mem_filter]

theorem mem_inner {l : Link α} : l ∈ inner links ↔ l ∈ links ∧ l.after ∉ ends links := by
  simp [inner, List.mem_filter]

theorem mem_released {a : α} :
    a ∈ released links ↔
      (∃ b, Precedes links a b ∧ b ∈ ends links) ∧ a ∉ (inner links).map (·.before) := by
  simp only [released, List.mem_filter, List.mem_map, Std.HashSet.contains_ofList,
    List.contains_iff_mem, Bool.not_eq_true', Bool.eq_false_iff, ne_eq, Precedes]
  refine and_congr_left fun _ => ⟨?_, ?_⟩
  · rintro ⟨l, ⟨hl, hend⟩, rfl⟩
    exact ⟨l.after, hl, hend⟩
  · rintro ⟨b, hl, hend⟩
    exact ⟨⟨a, b⟩, ⟨hl, hend⟩, rfl⟩

/-- A link to a name that others wait for outlasts the round. -/
theorem precedes_inner {a b : α} (h : Precedes links a b) (hb : b ∈ links.map (·.before)) :
    Precedes (inner links) a b :=
  mem_inner.mpr ⟨h, fun hend => (mem_ends.mp hend).2 hb⟩

theorem Precedes.of_inner {a b : α} (h : Precedes (inner links) a b) : Precedes links a b :=
  (mem_inner.mp h).1

theorem before_of_inner {a : α} (h : a ∈ (inner links).map (·.before)) :
    a ∈ links.map (·.before) := by
  obtain ⟨l, hl, rfl⟩ := List.mem_map.mp h
  exact List.mem_map_of_mem (mem_inner.mp hl).1

/-- Names that others wait for are released in this round or wait for a later one. -/
theorem before_iff {a : α} :
    a ∈ links.map (·.before) ↔ a ∈ released links ∨ a ∈ (inner links).map (·.before) := by
  constructor
  · intro ha
    by_cases hinner : a ∈ (inner links).map (·.before)
    · exact .inr hinner
    · obtain ⟨⟨a, b⟩, hl, rfl⟩ := List.mem_map.mp ha
      refine .inl (mem_released.mpr ⟨⟨b, hl, ?_⟩, hinner⟩)
      by_contra hend
      exact hinner (List.mem_map.mpr ⟨_, mem_inner.mpr ⟨hl, hend⟩, rfl⟩)
  · rintro (ha | ha)
    · obtain ⟨⟨b, hl, -⟩, -⟩ := mem_released.mp ha
      exact hl.before_mem
    · exact before_of_inner ha

/-- A name released in this round is needed before none that others wait for. -/
theorem not_precedes_of_released {a b : α} (ha : a ∈ released links)
    (hb : b ∈ links.map (·.before)) : ¬ Precedes links a b :=
  fun h => (mem_released.mp ha).2 (precedes_inner h hb).before_mem

theorem Acyclic.inner (h : Acyclic links) : Acyclic (Order.inner links) :=
  fun a ha => h a (Relation.TransGen.mono (fun _ _ => Precedes.of_inner) _ _ ha)

/-- A way to a name that others wait for outlasts the round. -/
theorem transGen_inner {a b : α} (h : Relation.TransGen (Precedes links) a b)
    (hb : b ∈ links.map (·.before)) : Relation.TransGen (Precedes (inner links)) a b := by
  induction h with
  | single h => exact .single (precedes_inner h hb)
  | tail _ h ih => exact .tail (ih h.before_mem) (precedes_inner h hb)

theorem Acyclic.of_inner (h : Acyclic (Order.inner links)) : Acyclic links := by
  intro a ha
  obtain ⟨b, hab, -⟩ := Relation.TransGen.head'_iff.mp ha
  exact h a (transGen_inner ha hab.before_mem)

/-- When nothing can be taken off, every name that others wait for leads to a cycle: of those that
led to none, take one from which no further is reached. -/
theorem leadsToCycle_of_stuck (hends : ends links = []) {a : α}
    (ha : a ∈ links.map (·.before)) : LeadsToCycle links a := by
  by_contra hnone
  have hstep : ∀ a, a ∈ links.map (·.before) → ¬ LeadsToCycle links a →
      ∃ b, Precedes links a b ∧ b ∈ links.map (·.before) ∧ ¬ LeadsToCycle links b := by
    intro a ha hnone
    obtain ⟨⟨a, b⟩, hl, rfl⟩ := List.mem_map.mp ha
    have hab : Precedes links a b := hl
    refine ⟨b, hab, ?_, fun hb => hnone (hb.head hab)⟩
    by_contra hb
    have hend : b ∈ ends links := mem_ends.mpr ⟨List.mem_map.mpr ⟨_, hl, rfl⟩, hb⟩
    simp [hends] at hend
  let Calm := { a // a ∈ links.map (·.before) ∧ ¬ LeadsToCycle links a }
  let reached (x y : Calm) : Prop := Relation.TransGen (Precedes links) y.1 x.1
  have htrans : IsTrans Calm reached := ⟨fun _ _ _ hxy hyz => hyz.trans hxy⟩
  have hirrefl : Std.Irrefl reached := ⟨fun x hx => x.2.2 ⟨x.1, .refl, hx⟩⟩
  have hfinite : Finite Calm :=
    ((List.finite_toSet (links.map (·.before))).subset fun _ hx => hx.1).to_subtype
  have hfalse : ∀ x : Calm, False := by
    intro x
    induction x using (Finite.wellFounded_of_trans_of_irrefl reached).induction with
    | _ x ih =>
        obtain ⟨b, hab, hb⟩ := hstep x.1 x.2.1 x.2.2
        exact ih ⟨b, hb⟩ (.single hab)
  exact hfalse ⟨a, ha, hnone⟩

/-- Links without a cycle have an end. -/
theorem ends_ne_nil (h : Acyclic links) (hne : links ≠ []) : ends links ≠ [] := by
  intro hends
  obtain ⟨l, hl⟩ := List.exists_mem_of_ne_nil links hne
  exact (leadsToCycle_of_stuck hends (List.mem_map_of_mem hl)).not_acyclic h

variable {atMost : α → α → Bool}

theorem fromEnd_nil : fromEnd atMost ([] : List (Link α)) = .ok [] := by
  rw [fromEnd]
  rfl

theorem fromEnd_round (hne : links ≠ []) (hends : ends links ≠ []) :
    fromEnd atMost links =
      (fromEnd atMost (inner links)).map fun later =>
        (ascending atMost (released links)).reverse ++ later := by
  rw [fromEnd]
  simp [hne, hends]

theorem fromEnd_stuck (hne : links ≠ []) (hends : ends links = []) :
    fromEnd atMost links = .error (.cyclic (ascending atMost (links.map (·.before)))) := by
  rw [fromEnd]
  simp [hne, hends]

/-- What is found from the end has every name that others wait for once, and none before one that
waits for it. -/
theorem fromEnd_spec {order : List α} (h : fromEnd atMost links = .ok order) :
    order.Nodup ∧ (∀ a, a ∈ order ↔ a ∈ links.map (·.before)) ∧
      order.Pairwise (fun a b => ¬ Precedes links a b) ∧ Acyclic links := by
  induction links using fromEnd.induct generalizing order with
  | case1 links hempty =>
      rw [List.isEmpty_iff] at hempty
      subst hempty
      rw [fromEnd_nil] at h
      cases h
      refine ⟨List.nodup_nil, by simp, List.Pairwise.nil, fun a ha => ?_⟩
      obtain ⟨b, hab, -⟩ := Relation.TransGen.head'_iff.mp ha
      cases hab
  | case2 links hempty hends =>
      rw [fromEnd_stuck (by simpa using hempty) hends] at h
      cases h
  | case3 links hempty hends ih =>
      rw [fromEnd_round (by simpa using hempty) hends] at h
      obtain ⟨later, hlater, rfl⟩ := map_eq_ok.mp h
      obtain ⟨hnodup, hmem, hpairs, hacyclic⟩ := ih hlater
      -- Among the names that others wait for none waits for a released one. So those of one round
      -- may stand in any order, and before all that later rounds find.
      have hreleased : ∀ a, a ∈ (ascending atMost (released links)).reverse ↔ a ∈ released links := by
        simp [mem_ascending]
      refine ⟨?_, ?_, ?_, hacyclic.of_inner⟩
      · refine List.nodup_append.mpr ⟨List.nodup_reverse.mpr (nodup_ascending _), hnodup, ?_⟩
        rintro a ha b hb rfl
        exact (mem_released.mp ((hreleased a).mp ha)).2 ((hmem a).mp hb)
      · intro a
        have hround : a ∈ links.map (·.before) ↔ _ := before_iff
        rw [List.mem_append, hreleased, hmem, hround]
      · refine List.pairwise_append.mpr ⟨?_, ?_, ?_⟩
        · refine List.Pairwise.imp_of_mem (fun ha hb _ => ?_)
            (List.pairwise_of_forall fun _ _ => trivial)
          exact not_precedes_of_released ((hreleased _).mp ha)
            (before_iff.mpr (.inl ((hreleased _).mp hb)))
        · refine hpairs.imp_of_mem fun _ hb hnot h => hnot (precedes_inner h ?_)
          exact before_iff.mpr (.inr ((hmem _).mp hb))
        · intro a ha b hb
          exact not_precedes_of_released ((hreleased _).mp ha)
            (before_iff.mpr (.inr ((hmem _).mp hb)))

theorem fromEnd_isOk (h : Acyclic links) : ∃ order, fromEnd atMost links = .ok order := by
  induction links using fromEnd.induct with
  | case1 links hempty =>
      rw [List.isEmpty_iff] at hempty
      exact ⟨[], hempty ▸ fromEnd_nil⟩
  | case2 links hempty hends => exact absurd hends (ends_ne_nil h (by simpa using hempty))
  | case3 links hempty hends ih =>
      obtain ⟨later, hlater⟩ := ih h.inner
      rw [fromEnd_round (by simpa using hempty) hends, hlater]
      exact ⟨_, rfl⟩

/-- An order of items exists exactly if the links have no cycle and mention items only. -/
theorem processingOrder_isOk_iff {items : List α} :
    (∃ order, processingOrder atMost links (some items) = .ok order) ↔
      Acyclic links ∧ ∀ l ∈ links, l.before ∈ items ∧ l.after ∈ items := by
  constructor
  · rintro ⟨order, h⟩
    obtain ⟨later, hlater, h⟩ := bind_eq_ok.mp h
    refine ⟨(fromEnd_spec hlater).2.2.2, fun l hl => ?_⟩
    simp only at h
    split at h
    · rename_i hunknown
      rw [List.isEmpty_iff, List.filter_eq_nil_iff] at hunknown
      have hmem : ∀ a, a = l.before ∨ a = l.after → a ∈ items := by
        intro a ha
        simpa using hunknown a (mem_mentioned.mpr ⟨l, hl, ha⟩)
      exact ⟨hmem _ (.inl rfl), hmem _ (.inr rfl)⟩
    · cases h
  · rintro ⟨hacyclic, hitems⟩
    obtain ⟨later, hlater⟩ : ∃ later, fromEnd atMost links = .ok later := fromEnd_isOk hacyclic
    have hunknown : (mentioned links).filter (!items.contains ·) = [] := by
      rw [List.filter_eq_nil_iff]
      intro a ha
      obtain ⟨l, hl, rfl | rfl⟩ := mem_mentioned.mp ha
      · simpa using (hitems l hl).1
      · simpa using (hitems l hl).2
    simp only [processingOrder, hlater, ok_bind, hunknown, List.isEmpty_nil, if_true]
    exact ⟨_, rfl⟩

/-- An order of distinct items holds each of them once and respects the links. -/
theorem processingOrder_spec {items order : List α} (hitems : items.Nodup)
    (h : processingOrder atMost links (some items) = .ok order) :
    order.Perm items ∧ Respects links order := by
  have hmentioned := (processingOrder_isOk_iff.mp ⟨order, h⟩).2
  obtain ⟨later, hlater, h⟩ := bind_eq_ok.mp h
  obtain ⟨hnodup, hmem, hpairs, -⟩ := fromEnd_spec hlater
  simp only at h
  split at h
  · cases h
    have hafter : ∀ a, a ∈ items.filter (!later.reverse.contains ·) ↔
        a ∈ items ∧ a ∉ links.map (·.before) := by
      simp [List.mem_filter, hmem]
    -- What is added behind are the items that nothing waits for, so no link starts at them.
    refine ⟨?_, ?_⟩
    · refine (List.perm_ext_iff_of_nodup ?_ hitems).mpr fun a => ?_
      · refine List.nodup_append.mpr
          ⟨List.nodup_reverse.mpr hnodup, hitems.filter _, ?_⟩
        rintro a ha b hb rfl
        exact ((hafter a).mp hb).2 ((hmem a).mp (List.mem_reverse.mp ha))
      · rw [List.mem_append, List.mem_reverse, hafter, hmem]
        constructor
        · rintro (ha | ⟨ha, -⟩)
          · obtain ⟨l, hl, rfl⟩ := List.mem_map.mp ha
            exact (hmentioned l hl).1
          · exact ha
        · intro ha
          by_cases hb : a ∈ links.map (·.before)
          · exact .inl hb
          · exact .inr ⟨ha, hb⟩
    · refine List.pairwise_append.mpr ⟨List.pairwise_reverse.mpr hpairs, ?_, ?_⟩
      · refine List.Pairwise.imp_of_mem (fun _ hb _ h => ?_)
          (List.pairwise_of_forall fun _ _ => trivial)
        exact ((hafter _).mp hb).2 h.before_mem
      · intro a _ b hb h
        exact ((hafter b).mp hb).2 h.before_mem
  · cases h

end BlockWorkbench.Order
