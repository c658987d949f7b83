import BlockWorkbench.Proofs.Handler
import BlockWorkbench.Proofs.Renaming

/-!
Renaming back. A rename that takes a name nothing has or reads loses nothing: the name that was
there before finds everything in its place again, the text of the code included.
-/

namespace BlockWorkbench

/-- A valid name is more than gaps. -/
theorem ValidName.solid {name : String} (h : ValidName name) : Handler.Solid name.toList := by
  obtain ⟨c, hc, hblank⟩ : ∃ c ∈ name.toList, Text.isBlank c = false := by
    simpa [Text.isAllBlank] using h.1
  exact ⟨c, hc,
    Handler.isGap_eq_false (p := (Text.isBlank · = false)) (by decide) (by decide) hblank⟩

theorem Graph.redirect_back {old new : String} {input : Json} (h : input ≠ .str new) :
    redirect new old (redirect old new input) = input := by
  cases input with
  | str s =>
      rw [redirect_str, redirect_str, renamedName_back fun hs => h (congrArg Json.str hs)]
  | null | bool _ | int _ | float _ | list _ | object _ => rfl

namespace Module

/-- The module that is renamed keeps its code if its text comes back; any other has another name
before and after and keeps its code anyway. -/
theorem renamed_back {m : Module} {old new : String} (hname : m.name ≠ new)
    (hinputs : ∀ input ∈ m.inputs, input ≠ .str new)
    (hcode : m.name = old → ∃ code, m.code = .str code ∧
      Handler.rename (Handler.rename code old new) new old = code) :
    (m.renamed old new).renamed new old = m := by
  have hinputs' :
      (m.inputs.map (Graph.redirect old new)).map (Graph.redirect new old) = m.inputs := by
    rw [List.map_map]
    exact (List.map_congr_left fun input hinput =>
      Graph.redirect_back (hinputs input hinput)).trans (List.map_id _)
  by_cases hold : m.name = old
  · obtain ⟨code, htext, hback⟩ := hcode hold
    subst hold
    have hnew : (m.renamed m.name new).name = new := by rw [renamed_name htext]
    have hcode' : (m.renamed m.name new).code = .str (Handler.rename code m.name new) := by
      rw [renamed_name htext]
    have hself := renamed_name hcode' m.name
    rw [hnew, hback, renamed_name htext] at hself
    rw [renamed_name htext, hself, hinputs', ← htext]
  · have hother : (m.renamed old new).name ≠ new := by rwa [renamed_of_ne hold]
    rw [renamed_of_ne hother, renamed_of_ne hold, hinputs']

end Module

namespace Graph

/-- Under its id the module is found as it is after the rename. -/
theorem Renames.lookup {g g' : Graph} {old new : String} (h : g.Renames old new g') {id : Json}
    {key : Scalar} {m : Module} (hm : g.lookup id = .ok (key, m)) :
    g'.lookup id = .ok (key, m.renamed old new) := by
  obtain ⟨k, hk, hm⟩ := bind_eq_ok.mp hm
  have hfind : g'.entries.find? (fun e => e.1.same k) =
      (g.entries.find? fun e => e.1.same k).map fun e => (e.1, e.2.renamed old new) := by
    rw [h.entries, List.find?_map]
    rfl
  simp only [Graph.lookup, hk, ok_bind, hfind]
  split at hm
  · rename_i e he
    cases hm
    rw [he]
    rfl
  · cases hm

/-- A second rename takes the entries back. -/
theorem Renames.entries_back {g g' g'' : Graph} {old new : String} (h : g.Renames old new g')
    (hback : g'.Renames new old g'')
    (hinputs : ∀ e ∈ g.entries, ∀ input ∈ e.2.inputs, input ≠ .str new)
    (hcode : ∀ e ∈ g.entries, e.2.name = old → ∃ code, e.2.code = .str code ∧
      Handler.rename (Handler.rename code old new) new old = code) :
    g''.entries = g.entries := by
  rw [hback.entries, h.entries, List.map_map]
  have hsame : ∀ e ∈ g.entries, (e.1, (e.2.renamed old new).renamed new old) = id e :=
    fun e he => Prod.ext rfl (Module.renamed_back (h.ne_new he) (hinputs e he) (hcode e he))
  exact (List.map_congr_left hsame).trans (List.map_id _)

/-- A rename to a valid name that is free, and what it makes of the graph. -/
theorem rename_renames {g : Graph} (h : g.WellNamed) {id : Json} {key : Scalar} {m : Module}
    {code new : String} (hm : g.lookup id = .ok (key, m)) (hcode : m.code = .str code)
    (hvalid : ValidName new) (hfree : new ∉ g.names) :
    ∃ g', g.rename id (.str new) = (.ok (.renamed m.name new), g') ∧
      g.Renames m.name new g' ∧ g'.next = g.next :=
  ⟨_, rename_of_free hm hcode hvalid hfree, renames_of_rename h hm hcode hvalid hfree, rfl⟩

/-- Renaming a module to `b` and back restores the graph, its lists of inputs and its code
included, if nothing read `b` and no line of the code defined it. -/
theorem rename_back_restores {g : Graph} (hg : g.Reachable) {id : Json} {key : Scalar} {m : Module}
    {code b : String} {r : Renaming} (hm : g.lookup id = .ok (key, m)) (hcode : m.code = .str code)
    (hr : (g.rename id (.str b)).1 = .ok r) (hname : '\n' ∉ m.name.toList) (hb : '\n' ∉ b.toList)
    (hinputs : ∀ e ∈ g.entries, ∀ input ∈ e.2.inputs, input ≠ .str b)
    (hlines : ∀ line ∈ Handler.lines code, ∀ lead rest,
      ¬ Handler.Defines b.toList line lead rest) :
    ∃ r', (g.rename id (.str b)).2.rename id (.str m.name) = (.ok r', g) := by
  have hwell := hg.wellNamed
  obtain ⟨before, after, hentries, -⟩ := lookup_eq_ok hm
  have hmem : (key, m) ∈ g.entries := by simp [hentries]
  have hvalidOld : ValidName m.name := hwell.valid _ (List.mem_map_of_mem hmem)
  obtain ⟨f, hren⟩ | ⟨key', m', hm', hname', hren⟩ |
    ⟨key', m', new, hm', hnew, hvalid, hfree⟩ := rename_cases g id (.str b)
  · simp [hren] at hr
  · cases hm.symm.trans hm'
    rw [hren, ← hname', hren]
    exact ⟨_, rfl⟩
  · cases hm.symm.trans hm'
    cases hnew
    have hrestored : Handler.rename (Handler.rename code m.name b) b m.name = code :=
      Handler.rename_back hvalidOld.solid hvalid.solid hname hb hlines
    obtain ⟨g', hrename, hthere, hnext⟩ := rename_renames hwell hm hcode hvalid hfree
    -- What the id now stands for; the old name is free again.
    have hname' : (m.renamed m.name b).name = b := by rw [Module.renamed_name hcode]
    have hcode' : (m.renamed m.name b).code = .str (Handler.rename code m.name b) := by
      rw [Module.renamed_name hcode]
    have hfree' : m.name ∉ g'.names := find?_eq_none_iff.mp hthere.find?_old
    obtain ⟨g'', hrename', hback, hnext'⟩ :=
      rename_renames hthere.wellNamed' (hthere.lookup hm) hcode' hvalidOld hfree'
    rw [hname'] at hrename' hback
    have hentries'' : g''.entries = g.entries :=
      hthere.entries_back hback hinputs fun e he hsame => by
        obtain rfl : e = (key, m) := List.inj_on_of_nodup_map hwell.nodup he hmem hsame
        exact ⟨code, hcode, hrestored⟩
    have hsame : g'' = g := calc
      g'' = ⟨g''.entries, g''.next⟩ := rfl
      _ = ⟨g.entries, g.next⟩ := by rw [hentries'', hnext', hnext]
      _ = g := rfl
    exact ⟨_, by rw [hrename, hrename', hsame]⟩

/-- The map of the starter is called baz and then foo again. -/
theorem rename_back_restores_starter :
    ∃ r', (starter.rename (.int 1) (.str "baz")).2.rename (.int 1) (.str "foo") =
      (.ok r', starter) := by
  have hlookup : starter.lookup (.int 1) = .ok (.int 1, {
      kind := .map, name := "foo", code := .str (Module.mapTemplate "foo")
      inputs := [.str blockName] }) := by rfl
  have hren : (starter.rename (.int 1) (.str "baz")).1 = .ok (.renamed "foo" "baz") := by rfl
  refine rename_back_restores reachable_starter hlookup rfl hren (by decide) (by decide) ?_ ?_
  · intro e he input hinput
    simp only [starter, List.mem_cons, List.not_mem_nil, or_false] at he
    obtain rfl | rfl := he <;> simp_all [blockName]
  · have hnone : ∀ line ∈ Handler.lines (Module.mapTemplate "foo"),
        Handler.lead? "baz".toList line = none := by decide
    exact fun line hline => Handler.lead?_eq_none (hnone line hline)

end Graph

end BlockWorkbench
