import BlockWorkbench.Proofs.Representation

/-!
The modules that depend on a module. They are found by a search that looks for the readers of one
module after another; which of those that wait is taken next is left open. Whatever is taken, the
search comes to an end, takes nothing that the graph does not hold, and has then found the modules
to which a chain of readers leads.
-/

namespace BlockWorkbench.Graph

/-- Whether the second module names the first among its inputs. -/
def Feeds (g : Graph) (e reader : Scalar × Module) : Prop :=
  e ∈ g.entries ∧ reader ∈ g.entries ∧ .str e.2.name ∈ reader.2.inputs

/-- Whether a chain of zero or more steps leads from the first module to the second, each from a
module to one that names it. -/
def LeadsTo (g : Graph) : Scalar × Module → Scalar × Module → Prop :=
  Relation.ReflTransGen g.Feeds

/-! ### Places -/

theorem mem_readersAt {g : Graph} {place i : Nat} :
    i ∈ g.readersAt place ↔ ∃ e reader, g.entries[place]? = some e ∧
      g.entries[i]? = some reader ∧ .str e.2.name ∈ reader.2.inputs := by
  unfold readersAt
  cases hplace : g.entries[place]? with
  | none => simp
  | some e =>
      have hread (inputs : List Json) :
          (inputs.any fun input => input.same (.str e.2.name)) = true ↔ .str e.2.name ∈ inputs := by
        simp [Json.same_str_iff]
      rw [List.mem_filter, List.mem_range]
      cases hi : g.entries[i]? with
      | none => simp
      | some reader =>
          have hlt : i < g.size := (List.getElem?_eq_some_iff.mp hi).1
          simp [hread, hlt]

theorem nodup_readersAt (g : Graph) (place : Nat) : (g.readersAt place).Nodup := by
  unfold readersAt
  split
  · exact List.nodup_nil
  · exact List.nodup_range.filter _

/-- Whether a chain of readers leads from one place to another. -/
def LeadsAt (g : Graph) : Nat → Nat → Prop :=
  Relation.ReflTransGen fun place i => i ∈ g.readersAt place

theorem leadsTo_iff {g : Graph} {place : Nat} {e e' : Scalar × Module}
    (he : g.entries[place]? = some e) :
    g.LeadsTo e e' ↔ ∃ i, g.entries[i]? = some e' ∧ g.LeadsAt place i := by
  constructor
  · intro h
    induction h with
    | refl => exact ⟨place, he, .refl⟩
    | tail _ hstep ih =>
        obtain ⟨i, hi, hlead⟩ := ih
        obtain ⟨-, hmem, hread⟩ := hstep
        obtain ⟨j, hj⟩ := List.mem_iff_getElem?.mp hmem
        exact ⟨j, hj, hlead.tail (mem_readersAt.mpr ⟨_, _, hi, hj, hread⟩)⟩
  · rintro ⟨i, hi, hlead⟩
    induction hlead generalizing e' with
    | refl =>
        cases he.symm.trans hi
        exact .refl
    | tail _ hstep ih =>
        obtain ⟨e₁, reader, h₁, hreader, hread⟩ := mem_readersAt.mp hstep
        cases hreader.symm.trans hi
        exact (ih h₁).tail
          ⟨List.mem_of_getElem? h₁, List.mem_of_getElem? hi, hread⟩

/-! ### Searches -/

/-- A search on its way: the places whose readers are still to be looked for, and all that have
been found. -/
structure Search where
  remaining : Finset Nat
  found : Finset Nat

namespace Search

def start (place : Nat) : Search := ⟨{place}, {place}⟩

/-- A place is taken out, and those of its readers that are new are to be looked at in turn. -/
def visit (g : Graph) (s : Search) (place : Nat) : Search where
  remaining := s.remaining.erase place ∪ ((g.readersAt place).toFinset \ s.found)
  found := s.found ∪ (g.readersAt place).toFinset

/-- The places that are taken out one after another, in an order that is left open, with the search
behind them. To take one out is to look up its module. -/
inductive Takes (g : Graph) : Search → List Nat → Search → Prop
  | nil (s : Search) : Takes g s [] s
  | cons {s s' : Search} {place : Nat} {order : List Nat} {e : Scalar × Module}
      (hmem : place ∈ s.remaining) (he : g.entries[place]? = some e)
      (hrest : Takes g (s.visit g place) order s') : Takes g s (place :: order) s'

/-- What holds of a search from `place` at all times: what it found is reached, and the readers of
what it has taken out are found. -/
structure Sound (g : Graph) (place : Nat) (s : Search) : Prop where
  remaining : s.remaining ⊆ s.found
  start : place ∈ s.found
  reached : ∀ i ∈ s.found, g.LeadsAt place i
  closed : ∀ i ∈ s.found, i ∉ s.remaining → ∀ j ∈ g.readersAt i, j ∈ s.found
  inside : ∀ i ∈ s.found, i < g.size

/-- What is left to do: the places that remain, and those that are not found. -/
def effort (g : Graph) (s : Search) : Nat := s.remaining.card + (g.size - s.found.card)

variable {g : Graph} {place i : Nat} {s s' : Search} {order : List Nat}

theorem sound_start (hplace : place < g.size) : Sound g place (start place) where
  remaining := Finset.Subset.refl _
  start := Finset.mem_singleton_self place
  reached _ hi := Finset.mem_singleton.mp hi ▸ .refl
  closed _ hi hnot := absurd hi hnot
  inside _ hi := Finset.mem_singleton.mp hi ▸ hplace

namespace Sound

theorem visit (h : Sound g place s) (hi : i ∈ s.remaining) : Sound g place (s.visit g i) where
  remaining := by
    intro j hj
    simp only [Search.visit, Finset.mem_union, Finset.mem_erase, Finset.mem_sdiff] at hj ⊢
    obtain ⟨-, hj⟩ | ⟨hj, -⟩ := hj
    · exact .inl (h.remaining hj)
    · exact .inr hj
  start := Finset.mem_union_left _ h.start
  reached := by
    intro j hj
    obtain hj | hj := Finset.mem_union.mp hj
    · exact h.reached j hj
    · exact (h.reached i (h.remaining hi)).tail (List.mem_toFinset.mp hj)
  closed := by
    intro j hj hnot k hk
    simp only [Search.visit, Finset.mem_union, Finset.mem_erase, Finset.mem_sdiff,
      List.mem_toFinset, not_or, not_and, not_not] at hj hnot ⊢
    by_cases hji : j = i
    · exact .inr (hji ▸ hk)
    · have hfound : j ∈ s.found := hj.elim id hnot.2
      exact .inl (h.closed j hfound (hnot.1 hji) k hk)
  inside := by
    intro j hj
    obtain hj | hj := Finset.mem_union.mp hj
    · exact h.inside j hj
    · obtain ⟨-, reader, -, hreader, -⟩ := mem_readersAt.mp (List.mem_toFinset.mp hj)
      exact (List.getElem?_eq_some_iff.mp hreader).1

theorem card_found_le (h : Sound g place s) : s.found.card ≤ g.size := by
  have hsub : s.found ⊆ Finset.range g.size := fun i hi => Finset.mem_range.mpr (h.inside i hi)
  simpa using Finset.card_le_card hsub

/-- Each round leaves one place less to do. -/
theorem effort_visit (h : Sound g place s) (hi : i ∈ s.remaining) :
    effort g (s.visit g i) + 1 = effort g s := by
  have hdisjoint : Disjoint (s.remaining.erase i) ((g.readersAt i).toFinset \ s.found) :=
    Finset.disjoint_left.mpr fun j hj hnew =>
      (Finset.mem_sdiff.mp hnew).2 (h.remaining (Finset.mem_of_mem_erase hj))
  have hremaining := Finset.card_union_of_disjoint hdisjoint
  have herase := Finset.card_erase_add_one hi
  have hfound := Finset.card_sdiff_add_card (g.readersAt i).toFinset s.found
  rw [Finset.union_comm] at hfound
  have hbound := (h.visit hi).card_found_le
  simp only [effort, Search.visit] at hbound ⊢
  omega

theorem takes (h : Sound g place s) (hrun : Takes g s order s') :
    Sound g place s' ∧ order.length + effort g s' = effort g s := by
  induction hrun with
  | nil s => exact ⟨h, by simp⟩
  | cons hmem _ _ ih =>
      obtain ⟨hsound, heffort⟩ := ih (h.visit hmem)
      have hround := h.effort_visit hmem
      exact ⟨hsound, by rw [List.length_cons]; omega⟩

/-- Where nothing remains, all that a chain of readers leads to has been found. -/
theorem found_iff (h : Sound g place s) (hdone : s.remaining = ∅) :
    i ∈ s.found ↔ g.LeadsAt place i := by
  refine ⟨h.reached i, fun hlead => ?_⟩
  induction hlead with
  | refl => exact h.start
  | tail _ hstep ih => exact h.closed _ ih (by simp [hdone]) _ hstep

end Sound

/-- Taking the first of a list of places each time is one of the orders, and it goes on until
nothing remains. -/
theorem takes_search {fuel : Nat} {remaining found : List Nat}
    (h : Sound g place ⟨remaining.toFinset, found.toFinset⟩) (hnodup : remaining.Nodup)
    (hfuel : effort g ⟨remaining.toFinset, found.toFinset⟩ ≤ fuel) :
    ∃ order, Takes g ⟨remaining.toFinset, found.toFinset⟩ order
      ⟨∅, (g.search fuel remaining found).toFinset⟩ := by
  induction fuel generalizing remaining found with
  | zero =>
      have hnone : remaining.toFinset = ∅ := by
        rw [← Finset.card_eq_zero]
        simp only [effort] at hfuel
        omega
      exact ⟨[], by rw [search, hnone]; exact .nil _⟩
  | succ fuel ih =>
      cases remaining with
      | nil => exact ⟨[], .nil _⟩
      | cons i rest =>
          obtain ⟨hnot, hrest⟩ := List.nodup_cons.mp hnodup
          have hi : i ∈ (i :: rest).toFinset := by simp
          have hround := h.effort_visit hi
          generalize hnew : ((g.readersAt i).filter fun j => !found.contains j) = new
          -- without repetitions a round on the lists is one on the sets
          have hvisit : Search.visit g ⟨(i :: rest).toFinset, found.toFinset⟩ i =
              ⟨(rest ++ new).toFinset, (found ++ new).toFinset⟩ := by
            subst hnew
            simp only [Search.visit, Search.mk.injEq]
            constructor
            · ext j
              by_cases hj : j = i <;> simp [hj, hnot]
            · ext j
              by_cases hj : j ∈ found <;> simp [hj]
          have hnodup' : (rest ++ new).Nodup := by
            subst hnew
            refine hrest.append ((nodup_readersAt g i).filter _) fun j hj hnew => ?_
            have hfound : j ∈ found := by simpa using h.remaining (by simp [hj] : j ∈ _)
            simp [hfound] at hnew
          have hsound := h.visit hi
          rw [hvisit] at hsound hround
          obtain ⟨order, hrun⟩ := ih hsound hnodup' (by omega)
          obtain ⟨e, he⟩ : ∃ e, g.entries[i]? = some e :=
            ⟨_, List.getElem?_eq_getElem (h.inside i (h.remaining hi))⟩
          refine ⟨i :: order, .cons hi he ?_⟩
          rw [hvisit, search, hnew]
          exact hrun

end Search

/-! ### Dependents -/

/-- The module of an id stands at the place from which its dependents are searched. -/
theorem place_of_lookup {g : Graph} {id : Json} {key : Scalar} {e : Scalar × Module}
    (hkey : id.asKey = .ok key) (he : g.lookup id = .ok e) :
    ∃ place, g.ids.findIdx? (fun k => k.same key) = some place ∧ g.entries[place]? = some e := by
  simp only [lookup, hkey, ok_bind] at he
  split at he
  · rename_i e' hfind
    cases he
    obtain ⟨hsame, place, hlt, hplace, hbefore⟩ := List.find?_eq_some_iff_getElem.mp hfind
    refine ⟨place, ?_, List.getElem?_eq_some_iff.mpr ⟨hlt, hplace⟩⟩
    rw [ids, List.findIdx?_map, List.findIdx?_eq_some_iff_getElem]
    exact ⟨hlt, by simpa [hplace] using hsame, fun j hj => by simpa using hbefore j hj⟩
  · cases he

theorem dependents_of_place {g : Graph} {id : Json} {key : Scalar} {place : Nat}
    (hkey : id.asKey = .ok key)
    (hplace : g.ids.findIdx? (fun k => k.same key) = some place) :
    g.dependents id = .ok (((g.entries.zipIdx.filter fun e =>
      (g.search g.size [place] [place]).contains e.2).map (·.1)).map (·.1)) := by
  simp only [dependents, hkey, ok_bind, hplace, pure_eq_ok]
  simp only [ids, List.zipIdx_map, List.filter_map, List.map_map]
  rfl

theorem dependents_of_not_contains {g : Graph} {id : Json} {key : Scalar}
    (hkey : id.asKey = .ok key) (h : g.contains key = false) :
    g.dependents id = .error (.missingKey id) := by
  have hnone : g.ids.findIdx? (fun k => k.same key) = none := by
    simpa [contains, get?, ids, List.findIdx?_map, Function.comp_def] using h
  simp [dependents, hkey, hnone]

/-- Where nothing remains of a search from the place of a module, the places that it found are
those of the modules to which a chain of readers leads. -/
theorem found_of_takes {g : Graph} (hg : g.WellNamed) {place : Nat} {e : Scalar × Module}
    (he : g.entries[place]? = some e) {order : List Nat} {s : Search}
    (hrun : Search.Takes g (.start place) order s) (hdone : s.remaining = ∅) (i : Nat) :
    i ∈ s.found ↔ ∃ e', g.entries[i]? = some e' ∧ g.LeadsTo e e' := by
  have hlt : place < g.size := (List.getElem?_eq_some_iff.mp he).1
  obtain ⟨hsound, -⟩ := (Search.sound_start hlt).takes hrun
  rw [hsound.found_iff hdone]
  constructor
  · intro hlead
    have hi := List.getElem?_eq_getElem (hsound.inside i ((hsound.found_iff hdone).mpr hlead))
    exact ⟨_, hi, (leadsTo_iff he).mpr ⟨i, hi, hlead⟩⟩
  · rintro ⟨e', hi, hlead⟩
    obtain ⟨j, hj, hlead⟩ := (leadsTo_iff he).mp hlead
    exact hg.place_unique hj hi rfl ▸ hlead

/-- The dependents of a module, in a graph with cycles, with modules that read themselves and with
inputs that name nothing as in any other, are the modules to which a chain of readers leads from
it. In whatever order the search takes out the places that remain, it ends after at most one round
for each module, every place that remains on the way holds a module, and it has found the places of
just these modules when none remains. For an id that the graph does not hold there is no answer. -/
theorem dependents_are_reached {g : Graph} (hg : g.Reachable) {id : Json} {key : Scalar}
    (hkey : id.asKey = .ok key) :
    (∀ e, g.lookup id = .ok e → ∃ (place : Nat) (found : List (Scalar × Module)),
      g.dependents id = .ok (found.map (·.1)) ∧ found.Sublist g.entries ∧
      (∀ e', e' ∈ found ↔ g.LeadsTo e e') ∧ g.entries[place]? = some e ∧
      ∀ order s, Search.Takes g (.start place) order s →
        order.length ≤ g.size ∧ (∀ i ∈ s.remaining, ∃ e', g.entries[i]? = some e') ∧
        (s.remaining = ∅ → ∀ i, i ∈ s.found ↔
          ∃ e', g.entries[i]? = some e' ∧ g.LeadsTo e e')) ∧
    (g.contains key = false → g.dependents id = .error (.missingKey id)) := by
  refine ⟨fun e he => ?_, dependents_of_not_contains hkey⟩
  obtain ⟨place, hplace, hentry⟩ := place_of_lookup hkey he
  have hlt : place < g.size := (List.getElem?_eq_some_iff.mp hentry).1
  have hstart := Search.sound_start hlt
  have heffort : Search.effort g (.start place) = g.size := by
    simp only [Search.effort, Search.start, Finset.card_singleton]
    omega
  refine ⟨place, _, dependents_of_place hkey hplace, ?_, fun e' => ?_, hentry,
    fun order s hrun => ⟨?_, ?_, found_of_takes hg.wellNamed hentry hrun⟩⟩
  · have hsub := (g.entries.zipIdx.filter_sublist (p := fun e =>
      (g.search g.size [place] [place]).contains e.2)).map Prod.fst
    rwa [List.zipIdx_map_fst] at hsub
  -- The search over lists is one of the searches over sets, so it finds what each of them finds.
  · obtain ⟨order, hrun⟩ : ∃ order, Search.Takes g (.start place) order
        ⟨∅, (g.search g.size [place] [place]).toFinset⟩ := by
      have hlists : Search.start place = ⟨[place].toFinset, [place].toFinset⟩ := by
        simp [Search.start]
      rw [hlists] at hstart heffort ⊢
      exact Search.takes_search hstart (List.nodup_singleton place) heffort.le
    have hfound := found_of_takes hg.wellNamed hentry hrun rfl
    simp only [List.mem_toFinset] at hfound
    simp only [List.mem_map, List.mem_filter, List.mem_zipIdx_iff_getElem?, List.contains_iff_mem,
      hfound]
    constructor
    · rintro ⟨a, ⟨ha, e₁, he₁, hlead⟩, rfl⟩
      cases ha.symm.trans he₁
      exact hlead
    · intro hlead
      obtain ⟨i, hi, -⟩ := (leadsTo_iff hentry).mp hlead
      exact ⟨(e', i), ⟨hi, e', hi, hlead⟩, rfl⟩
  · obtain ⟨-, hrounds⟩ := hstart.takes hrun
    omega
  · obtain ⟨hsound, -⟩ := hstart.takes hrun
    exact fun i hi => ⟨_, List.getElem?_eq_getElem (hsound.inside i (hsound.remaining hi))⟩

/-- A definition of a graph with a cycle, a module that reads itself and an input that names
nothing. -/
def tangled : Json := .object [("modules", .list [
  .object [("id", .int 1), ("kind", .str "map"), ("name", .str "a"),
    ("inputs", .list [.str "b", .str "a"])],
  .object [("id", .int 7), ("kind", .str "map"), ("name", .str "c"),
    ("inputs", .list [.str "gone", .str "BLOCK"])],
  .object [("id", .int 3), ("kind", .str "map"), ("name", .str "b"), ("inputs", .list [.str "a"])],
  .object [("id", .int 4), ("kind", .str "store"), ("name", .str "d"),
    ("inputs", .list [.str "c", .str "b"])]])]

/-- Truth values are numbers, so the search is for the dependents of `a`. -/
theorem dependents_are_reached_tangled :
    ∃ (g : Graph) (place : Nat) (e : Scalar × Module) (found : List (Scalar × Module)),
      ofDefinition tangled = .ok g ∧ g.lookup (.bool true) = .ok e ∧
      g.dependents (.bool true) = .ok [.int 1, .int 3, .int 4] ∧
      found.map (·.1) = [Scalar.int 1, .int 3, .int 4] ∧ (∀ e', e' ∈ found ↔ g.LeadsTo e e') ∧
      g.entries[place]? = some e ∧
      (∀ order s, Search.Takes g (.start place) order s → order.length ≤ 4) ∧
      g.dependents (.int 2) = .error (.missingKey (.int 2)) := by
  have hload : ofDefinition tangled = .ok {
      entries := [
        (.int 1, { kind := .map, name := "a", inputs := [.str "b", .str "a"] }),
        (.int 7, { kind := .map, name := "c", inputs := [.str "gone", .str "BLOCK"] }),
        (.int 3, { kind := .map, name := "b", inputs := [.str "a"] }),
        (.int 4, { kind := .store .set, name := "d", inputs := [.str "c", .str "b"] })]
      next := .int 8 } := by rfl
  have hreach := (Origin.loaded hload).reachable
  obtain ⟨place, found, hdependents, -, hfound, hplace, horders⟩ :=
    (@dependents_are_reached _ hreach (.bool true) _ rfl).1 _ rfl
  have hsearched : Except.ok (found.map (·.1)) = Except.ok [Scalar.int 1, .int 3, .int 4] :=
    hdependents.symm.trans (by rfl)
  refine ⟨_, place, _, found, hload, rfl, by rfl, Except.ok.inj hsearched, hfound, hplace,
    fun order s hrun => (horders order s hrun).1, ?_⟩
  exact (@dependents_are_reached _ hreach (.int 2) _ rfl).2 rfl

end BlockWorkbench.Graph
