import BlockWorkbench.Proofs.Reachable

/-!
What a failing operation leaves of a graph. Every operation leaves it as it was, with one
exception: a rename reaches the code of the module only after the name, so code that is not text
leaves the module under its new name and all its readers behind.
-/

namespace BlockWorkbench

namespace Graph

/-- A rename to a name that is free, of a module whose code is not text. -/
structure RenamesNonText (g : Graph) (op : Operation) (key : Scalar) (m : Module) (new : String) :
    Prop where
  operation : ∃ id, op = .rename id (.str new) ∧ g.lookup id = .ok (key, m)
  code : ∀ code, m.code ≠ .str code
  valid : ValidName new
  free : new ∉ g.names

/-- Only a rename is not a change that takes place as a whole. -/
theorem perform_error_of_not_rename {g : Graph} {op : Operation}
    (h : ∀ id newName, op ≠ .rename id newName) {f : Fault} (hf : (g.perform op).1 = .error f) :
    (g.perform op).2 = g := by
  have hchanged : ∀ r : Except Fault (Answer × Graph), (g.changed r).1 = .error f →
      (g.changed r).2 = g := by
    rintro (f' | p) hr
    · rfl
    · cases hr
  cases op with
  | rename id newName => exact absurd rfl (h id newName)
  | insert _ | newMap _ | newStore _ _ | load _ | reload | remove _ | setInputs _ _
  | setCode _ _ | setUpdatePolicy _ _ => exact hchanged _ hf
  | all | size | contains _ | dumps _ | equal _ _ | inspect _ | generate | validate
  | register _ | resolveInput _ | get _ | find _ | names | dependents _ | definition => rfl

/-- A module under a name that was free makes another graph. -/
theorem put_ne {g : Graph} {id : Json} {key : Scalar} {m m' : Module}
    (hm : g.lookup id = .ok (key, m)) (hfree : m'.name ∉ g.names) : g.put key m' ≠ g := by
  intro heq
  obtain ⟨before, after, -, hput⟩ := lookup_eq_ok hm
  apply hfree
  rw [← heq]
  simp [names, hput]

theorem RenamesNonText.perform {g : Graph} {op : Operation} {key : Scalar} {m : Module}
    {new : String} (h : g.RenamesNonText op key m new) :
    g.perform op = (.error (.notText m.code.typeName), g.put key { m with name := new }) := by
  obtain ⟨⟨id, rfl, hm⟩, hcode, hvalid, hfree⟩ := h
  simp [Graph.perform, rename_of_free_nonText hm hcode hvalid hfree]

/-- A failing operation changes the graph exactly if it renames a module whose code is not text;
what changed is then the name of that module alone. -/
theorem failed_operation_changes_iff (g : Graph) (op : Operation) :
    ((∃ f, (g.perform op).1 = .error f ∧ (g.perform op).2 ≠ g) ↔
      ∃ key m new, g.RenamesNonText op key m new) ∧
    ∀ key m new, g.RenamesNonText op key m new →
      g.perform op = (.error (.notText m.code.typeName), g.put key { m with name := new }) := by
  refine ⟨⟨?_, ?_⟩, fun _ _ _ h => h.perform⟩
  · rintro ⟨f, hf, hne⟩
    by_cases hop : ∃ id newName, op = .rename id newName
    · obtain ⟨id, newName, rfl⟩ := hop
      obtain ⟨f', hren⟩ | ⟨key, m, hm, hname, hren⟩ | ⟨key, m, new, hm, rfl, hvalid, hfree⟩ :=
        rename_cases g id newName
      · simp [Graph.perform, hren] at hne
      · simp [Graph.perform, hren] at hne
      · refine ⟨key, m, new, ⟨id, rfl, hm⟩, fun code hcode => ?_, hvalid, hfree⟩
        simp [Graph.perform, rename_of_free hm hcode hvalid hfree] at hf
    · exact absurd (perform_error_of_not_rename (fun id n h => hop ⟨id, n, h⟩) hf) hne
  · rintro ⟨key, m, new, h⟩
    obtain ⟨id, -, hm⟩ := h.operation
    rw [h.perform]
    exact ⟨_, rfl, put_ne hm h.free⟩

/-- A module with a number for its code keeps the name of the rename that failed. -/
theorem failed_rename_keeps_new_name :
    ∃ g : Graph, g.Reachable ∧ g.names = ["foo"] ∧
      (g.perform (.rename (.int 1) (.str "bar"))).1 = .error (.notText "int") ∧
      (g.perform (.rename (.int 1) (.str "bar"))).2.names = ["bar"] :=
  ⟨(({} : Graph).perform (.insert (.object
      [("kind", .str "map"), ("name", .str "foo"), ("code", .int 5)]))).2,
    .perform _ .empty, by rfl, by rfl, by rfl⟩

end Graph

end BlockWorkbench
