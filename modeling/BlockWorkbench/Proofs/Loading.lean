import BlockWorkbench.Proofs.Saving

/-!
What becomes of the modules of a definition that is loaded. Each is put under the id that it gives,
or under the number that comes next; the numbers count from one, whatever ids are given. A module
that is put under the id of another takes its place, so that all are kept exactly if no id is given
twice and none of them is a number that is counted off.
-/

namespace BlockWorkbench

namespace Json

variable {α : Type}

/-- Of entries that are set one after another some replace another, or all are added at the end. -/
theorem foldl_setEntry_cases (entries added : List (Scalar × α)) :
    (added.foldl (fun acc e => setEntry acc e.1 e.2) entries).length <
        entries.length + added.length ∨
      added.foldl (fun acc e => setEntry acc e.1 e.2) entries = entries ++ added := by
  induction added generalizing entries with
  | nil => exact .inr (List.append_nil entries).symm
  | cons e rest ih =>
      rw [List.foldl_cons, List.length_cons]
      obtain ⟨before, k, v, after, rfl, hk, hbefore⟩ | hnew := find?_same_cases entries e.1
      · have hrest := ih (before ++ (k, e.2) :: after)
        simp only [List.length_append, List.length_cons] at hrest
        refine .inl ?_
        rw [setEntry_append hbefore hk]
        simp only [List.length_append, List.length_cons]
        obtain hless | heq := hrest
        · omega
        · rw [heq]
          simp only [List.length_append, List.length_cons]
          omega
      · have hrest := ih (entries ++ [e])
        rw [List.length_append, List.length_singleton, List.append_assoc] at hrest
        rw [setEntry_of_forall hnew]
        exact hrest.imp (fun hless => hless.trans_eq (by omega)) id

/-- Entries under keys that differ are all added at the end. -/
theorem foldl_setEntry_of_pairwise {added : List (Scalar × α)}
    (h : (added.map (·.1)).Pairwise fun a b => a.same b = false) (entries : List (Scalar × α))
    (hnew : ∀ e ∈ entries, ∀ e' ∈ added, e.1.same e'.1 = false) :
    added.foldl (fun acc e => setEntry acc e.1 e.2) entries = entries ++ added := by
  induction added generalizing entries with
  | nil => exact (List.append_nil entries).symm
  | cons e rest ih =>
      obtain ⟨hfirst, hrest⟩ := List.pairwise_cons.mp h
      rw [List.foldl_cons, setEntry_of_forall fun e' he' => hnew e' he' e List.mem_cons_self]
      have hnew' : ∀ e' ∈ entries ++ [e], ∀ e'' ∈ rest, e'.1.same e''.1 = false := by
        intro e' he' e'' he''
        obtain he' | he' := List.mem_append.mp he'
        · exact hnew e' he' e'' (List.mem_cons_of_mem e he'')
        · exact List.mem_singleton.mp he' ▸ hfirst _ (List.mem_map_of_mem he'')
      rw [ih hrest _ hnew', List.append_assoc]
      rfl

end Json

namespace Graph

/-- The entries of a definition, one for each module. -/
def states : Json → List Json
  | .object fields =>
    match (Json.field? fields "modules").map Json.elements with
    | some (.ok states) => states
    | _ => []
  | _ => []

theorem givenIds_eq (definition : Json) :
    givenIds definition = (states definition).filterMap givenId? := by
  cases definition with
  | object fields =>
      simp only [givenIds, states]
      cases (Json.field? fields "modules").map Json.elements with
      | none => rfl
      | some states => cases states <;> rfl
  | null | bool _ | int _ | float _ | str _ | list _ => rfl

/-- How many entries of a definition give no id. -/
def blanks (states : List Json) : Nat := states.countP fun state => (givenId? state).isNone

/-- What is put into a graph as entries are loaded one after another, `next` being the number that
comes next. -/
inductive Puts : Int → List Json → List (Scalar × Module) → Prop
  | nil (next : Int) : Puts next [] []
  | given {next : Int} {state id : Json} {key : Scalar} {m : Module} {states : List Json}
      {entries : List (Scalar × Module)} (hid : givenId? state = some id) (hkey : id.asKey = .ok key)
      (hm : Describes state m) (hrest : Puts next states entries) :
      Puts next (state :: states) ((key, m) :: entries)
  | counted {next : Int} {state : Json} {m : Module} {states : List Json}
      {entries : List (Scalar × Module)} (hid : givenId? state = none) (hm : Describes state m)
      (hrest : Puts (next + 1) states entries) :
      Puts next (state :: states) ((.int next, m) :: entries)

theorem foldlM_load_puts {g g' : Graph} {next : Int} {states : List Json}
    (hnext : g.next = .int next) (h : states.foldlM load g = .ok g') :
    ∃ entries, Puts next states entries ∧
      g'.entries = entries.foldl (fun acc e => Json.setEntry acc e.1 e.2) g.entries := by
  induction states generalizing g next with
  | nil =>
      cases h
      exact ⟨[], .nil next, rfl⟩
  | cons state rest ih =>
      rw [List.foldlM_cons] at h
      obtain ⟨g₁, hg₁, h⟩ := bind_eq_ok.mp h
      obtain ⟨m, hm, ⟨hid, rfl⟩ | ⟨id, key, hid, hkey, rfl⟩⟩ := load_cases hg₁
      · obtain ⟨entries, hputs, hentries⟩ := ih (by rw [hnext, succ]) h
        refine ⟨(.int next, m) :: entries, .counted hid hm hputs, ?_⟩
        rw [hentries, List.foldl_cons, hnext]
        rfl
      · obtain ⟨entries, hputs, hentries⟩ := ih (g := g.put key m) hnext h
        exact ⟨(key, m) :: entries, .given hid hkey hm hputs, hentries⟩

/-- The numbers from `next` on. -/
def numbers (next : Int) (count : Nat) : List Scalar :=
  (List.range count).map fun i : Nat => .int (next + (i : Int))

theorem numbers_succ (next : Int) (count : Nat) :
    numbers next (count + 1) = .int next :: numbers (next + 1) count := by
  simp only [numbers, List.range_succ_eq_map, List.map_cons, List.map_map, Nat.cast_zero, add_zero]
  congr 1
  refine List.map_congr_left fun i _ => ?_
  simp only [Function.comp_apply, Scalar.int.injEq]
  omega

theorem mem_numbers {next : Int} {count : Nat} {id : Scalar} :
    id ∈ numbers next count ↔ ∃ n, next ≤ n ∧ n < next + count ∧ id = .int n := by
  simp only [numbers, List.mem_map, List.mem_range]
  constructor
  · rintro ⟨i, hi, rfl⟩
    exact ⟨next + i, by omega, by omega, rfl⟩
  · rintro ⟨n, hle, hlt, rfl⟩
    exact ⟨(n - next).toNat, by omega, by rw [Int.toNat_of_nonneg (by omega)]; congr 1; omega⟩

theorem pairwise_numbers (next : Int) (count : Nat) :
    (numbers next count).Pairwise fun a b => a.same b = false := by
  rw [numbers, List.pairwise_map]
  refine List.nodup_range.imp fun {i j} hij => ?_
  rw [Bool.eq_false_iff]
  intro hsame
  have := (Scalar.IsInteger.same_iff (a := .int (next + i)) (b := .int (next + j)) rfl rfl).mp hsame
  omega

namespace Puts

variable {next : Int} {states : List Json} {entries : List (Scalar × Module)}

theorem length (h : Puts next states entries) : entries.length = states.length := by
  induction h with
  | nil _ => rfl
  | given _ _ _ _ ih | counted _ _ _ ih => simp [ih]

/-- The ids are those that are given and the numbers that are counted off for the others. -/
theorem ids_perm (h : Puts next states entries) :
    ∃ keys, keys.map Scalar.toJson = states.filterMap givenId? ∧
      (entries.map (·.1)).Perm (keys ++ numbers next (blanks states)) := by
  induction h with
  | nil next => exact ⟨[], rfl, .refl _⟩
  | @given next state id key m states entries hid hkey hm _ ih =>
      obtain ⟨keys, hkeys, hperm⟩ := ih
      refine ⟨key :: keys, by simp [hid, hkeys, toJson_asKey hkey], ?_⟩
      have hblanks : blanks (state :: states) = blanks states := by simp [blanks, hid]
      rw [hblanks]
      exact hperm.cons key
  | @counted next state m states entries hid hm _ ih =>
      obtain ⟨keys, hkeys, hperm⟩ := ih
      refine ⟨keys, by simp [hid, hkeys], ?_⟩
      have hblanks : blanks (state :: states) = blanks states + 1 := by simp [blanks, hid]
      rw [hblanks, numbers_succ]
      exact (hperm.cons (.int next)).trans List.perm_middle.symm

/-- No two ids are the same key exactly if those that are given differ from each other and from the
numbers that are counted off. -/
theorem pairwise_iff (h : Puts next states entries) :
    ((entries.map (·.1)).Pairwise fun a b => a.same b = false) ↔
      ((states.filterMap givenId?).Pairwise fun a b => a.same b = false) ∧
      ∀ id ∈ states.filterMap givenId?, ∀ n, next ≤ n → n < next + blanks states →
        id.same (.int n) = false := by
  obtain ⟨keys, hkeys, hperm⟩ := h.ids_perm
  have hsymm {a b : Scalar} (hab : a.same b = false) : b.same a = false := by
    rw [Bool.eq_false_iff] at hab ⊢
    exact fun hba => hab (Scalar.same_symm hba)
  rw [hperm.pairwise_iff hsymm, List.pairwise_append, ← hkeys, List.pairwise_map]
  simp only [pairwise_numbers, true_and, mem_numbers, List.mem_map, forall_exists_index, and_imp,
    forall_apply_eq_imp_iff₂]
  exact ⟨fun ⟨hkeys, hnumbers⟩ => ⟨hkeys, fun a ha n hle hlt => hnumbers a ha _ n hle hlt rfl⟩,
    fun ⟨hkeys, hnumbers⟩ => ⟨hkeys, fun a ha b n hle hlt hb => hb ▸ hnumbers a ha n hle hlt⟩⟩

/-- Each module is the one described, under the id that is given for it. -/
theorem describes (h : Puts next states entries) :
    List.Forall₂ (fun state e => Describes state e.2 ∧
      ∀ id, givenId? state = some id → id.asKey = .ok e.1) states entries := by
  induction h with
  | nil _ => exact .nil
  | given hid hkey hm _ ih =>
      refine .cons ⟨hm, fun id' hid' => ?_⟩ ih
      cases hid.symm.trans hid'
      exact hkey
  | counted hid hm _ ih => exact .cons ⟨hm, fun id' hid' => by simp [hid] at hid'⟩ ih

end Puts

theorem DistinctIds.get?_of_mem {g : Graph} (h : g.DistinctIds) {e : Scalar × Module}
    (he : e ∈ g.entries) (hself : e.1.same e.1 = true) : g.get? e.1 = some e.2 := by
  obtain ⟨before, after, hentries⟩ := List.append_of_mem he
  refine get?_of_entries hentries (fun e' he' => ?_) hself
  rw [DistinctIds, ids, hentries, List.map_append, List.pairwise_append] at h
  exact h.2.2 _ (List.mem_map_of_mem he') _ (by simp)

/-- Whether a graph holds every module of a definition: one for each entry in their order, under the
id that the entry gives, and none under the id of another. -/
structure KeepsModules (g : Graph) (definition : Json) : Prop where
  modules : List.Forall₂ (fun state e => Describes state e.2 ∧
    ∀ id, givenId? state = some id → id.asKey = .ok e.1) (states definition) g.entries
  found : ∀ e ∈ g.entries, g.get? e.1 = some e.2
  distinct : g.ids.Pairwise fun a b => a.same b = false

/-- What is loaded is what is put there, where what is put later under the same id takes the place
of the former. -/
theorem puts_of_loaded {definition : Json} {g : Graph} (h : ofDefinition definition = .ok g) :
    ∃ entries, Puts 1 (states definition) entries ∧
      g.entries = entries.foldl (fun acc e => Json.setEntry acc e.1 e.2) [] := by
  obtain ⟨fields, modules, all, loaded, next, rfl, -, hmodules, hall, hloaded, -, rfl⟩ :=
    ofDefinition_eq_ok.mp h
  have hstates : states (.object fields) = all := by simp [states, hmodules, hall]
  exact hstates ▸ foldlM_load_puts rfl hloaded

/-- A graph that is loaded with integers for ids holds every module of its definition exactly if the
ids that are given differ from each other, and from the numbers that are counted off for the
entries without one. In any case a module that is put under the id of another takes its place. -/
theorem loaded_keeps_modules_iff {definition : Json} {g : Graph}
    (h : ofDefinition definition = .ok g)
    (hids : ∀ id ∈ givenIds definition, ∃ n, id.number? = some (.int n)) :
    (g.KeepsModules definition ↔
      ((givenIds definition).Pairwise fun a b => a.same b = false) ∧
      ∀ id ∈ givenIds definition, ∀ n : Int, 1 ≤ n → n ≤ blanks (states definition) →
        id.same (.int n) = false) ∧
    ∃ entries, Puts 1 (states definition) entries ∧
      g.entries = entries.foldl (fun acc e => Json.setEntry acc e.1 e.2) [] := by
  obtain ⟨entries, hputs, hentries⟩ := puts_of_loaded h
  have hdistinct := DistinctIds.of_loaded h
  have happart := hputs.pairwise_iff
  rw [← givenIds_eq] at happart
  refine ⟨?_, entries, hputs, hentries⟩
  constructor
  · intro hkeeps
    -- with a module replaced the graph would be shorter than the definition
    have hall : g.entries = entries := by
      obtain hless | hall := Json.foldl_setEntry_cases [] entries
      · have hlength := hkeeps.modules.length_eq
        rw [← hentries, hputs.length, hlength, List.length_nil] at hless
        omega
      · exact hentries.trans hall
    obtain ⟨hgiven, hcounted⟩ := happart.mp (hall ▸ hkeeps.distinct)
    exact ⟨hgiven, fun id hid n hle hlt => hcounted id hid n hle (by omega)⟩
  · rintro ⟨hgiven, hcounted⟩
    have hpairwise := happart.mpr
      ⟨hgiven, fun id hid n hle hlt => hcounted id hid n hle (by omega)⟩
    have hall : g.entries = entries :=
      hentries.trans (Json.foldl_setEntry_of_pairwise hpairwise [] (by simp))
    refine ⟨hall ▸ hputs.describes, fun e he => hdistinct.get?_of_mem he ?_, hdistinct⟩
    obtain ⟨next, hbelow⟩ := belowNext_of_loaded h hids
    obtain ⟨n, -, hn⟩ := hbelow.below e.1 (List.mem_map_of_mem he)
    exact (hn.same_iff hn).mpr rfl

/-- A definition that gives some ids and not others. -/
def partlyCounted : Json := .object [("modules", .list [
  .object [("id", .int 3), ("kind", .str "map"), ("name", .str "a")],
  .object [("kind", .str "map"), ("name", .str "b")],
  .object [("id", .bool false), ("kind", .str "store"), ("name", .str "c")],
  .object [("id", .null), ("kind", .str "map"), ("name", .str "d")]])]

theorem loaded_keeps_modules_iff_partly :
    ∃ g, ofDefinition partlyCounted = .ok g ∧
      (∀ id ∈ givenIds partlyCounted, ∃ n, id.number? = some (.int n)) ∧
      g.names = ["a", "b", "c", "d"] ∧ g.ids = [.int 3, .int 1, .bool false, .int 2] ∧
      g.KeepsModules partlyCounted := by
  have hload : ofDefinition partlyCounted = .ok {
      entries := [(.int 3, { kind := .map, name := "a" }), (.int 1, { kind := .map, name := "b" }),
        (.bool false, { kind := .store .set, name := "c" }), (.int 2, { kind := .map, name := "d" })]
      next := .int 4 } := by rfl
  have hgiven : givenIds partlyCounted = [.int 3, .bool false] := by rfl
  have hblanks : blanks (states partlyCounted) = 2 := by rfl
  have hids : ∀ id ∈ givenIds partlyCounted, ∃ n, id.number? = some (.int n) := by
    rw [hgiven]
    simp [Json.number?]
  refine ⟨_, hload, hids, rfl, rfl, (loaded_keeps_modules_iff hload hids).1.mpr ?_⟩
  rw [hgiven, hblanks, List.forall_mem_cons, List.forall_mem_singleton]
  have hapart {a b : Scalar} {m n : Int} (ha : a.IsInteger m) (hb : b.IsInteger n) (hne : m ≠ n) :
      a.same b = false := by
    rw [Bool.eq_false_iff]
    exact fun hsame => hne ((ha.same_iff hb).mp hsame)
  have hthree : (Scalar.int 3).IsInteger 3 := rfl
  have hzero : (Scalar.bool false).IsInteger 0 := rfl
  refine ⟨List.pairwise_pair.mpr (hapart hthree hzero (by decide)), fun n hle hlt => ?_,
    fun n hle hlt => ?_⟩
  · exact hapart hthree (b := .int n) rfl (by omega)
  · exact hapart hzero (b := .int n) rfl (by omega)

/-- A definition that gives an id to its first module alone. -/
def firstGiven : Json := .object [("modules", .list [
  .object [("id", .int 1), ("kind", .str "map"), ("name", .str "a")],
  .object [("kind", .str "map"), ("name", .str "b")]])]

/-- The first number that is counted off is the id that is given, and the module under it is lost;
nor is a definition refused that gives an id twice. -/
theorem counted_id_replaces_module :
    (∃ g, ofDefinition firstGiven = .ok g ∧
      (∀ id ∈ givenIds firstGiven, ∃ n, id.number? = some (.int n)) ∧
      (states firstGiven).length = 2 ∧ g.names = ["b"] ∧ ¬g.KeepsModules firstGiven) ∧
    ∃ g, ofDefinition overlaid = .ok g ∧ givenIds overlaid = [.int 1, .int 2, .int 1] ∧
      g.names = ["c", "b"] := by
  have hload : ofDefinition firstGiven = .ok {
      entries := [(.int 1, { kind := .map, name := "b" })], next := .int 2 } := by rfl
  have hgiven : givenIds firstGiven = [.int 1] := by rfl
  refine ⟨⟨_, hload, ?_, by rfl, rfl, fun hkeeps => ?_⟩, _, by rfl, by rfl, by rfl⟩
  · rw [hgiven]
    simp [Json.number?]
  · have hlength : 2 = 1 := hkeeps.modules.length_eq
    omega

end Graph

end BlockWorkbench
