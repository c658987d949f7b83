import BlockWorkbench.Proofs.MessagePack
import BlockWorkbench.Server.Route

/-!
Where paths lead. A path of plain characters is its own unescaped form; so each request of the
session is found under its name and under `RPC2`.
-/

namespace BlockWorkbench

namespace Url

theorem toUTF8_plain {c : Char} (h : c.toNat < 0x80) :
    (String.ofList [c]).toUTF8.toList = [c.toNat.toUInt8] := by
  have hsize : c.utf8Size = 1 := Char.utf8Size_eq_one_iff.mpr (by
    rw [UInt32.le_iff_toNat_le]
    exact Nat.le_of_lt_succ h)
  have hbytes : (String.ofList [c]).toUTF8 = [c].utf8Encode := by simp
  rw [MessagePack.toList_eq, hbytes, List.utf8Encode_singleton,
    String.utf8EncodeChar_eq_singleton hsize]
  rfl

theorem charOfBytes?_toUTF8 (c : Char) :
    charOfBytes? (String.ofList [c]).toUTF8.toList = some c := by
  rw [charOfBytes?, MessagePack.fromUTF8?_toList]
  simp

/-- The characters of ASCII but the percent sign, which starts escapes. -/
def IsPlain (c : Char) : Prop := c.toNat < 0x80 ∧ c ≠ '%'

instance : DecidablePred IsPlain := fun _ => inferInstanceAs (Decidable (_ ∧ _))

theorem unescape_plain {cs : List Char} (h : ∀ c ∈ cs, IsPlain c) :
    unescape cs = cs.map fun c => c.toNat.toUInt8 := by
  induction cs with
  | nil => rfl
  | cons c cs ih =>
      obtain ⟨hascii, hpercent⟩ := h c List.mem_cons_self
      rw [unescape, ih fun d hd => h d (List.mem_cons_of_mem _ hd), toUTF8_plain hascii]
      · rfl
      · simp_all

theorem decodeBytes_plain {cs : List Char} (h : ∀ c ∈ cs, IsPlain c) :
    decodeBytes (cs.map fun c => c.toNat.toUInt8) = cs := by
  induction cs with
  | nil => rw [List.map_nil, decodeBytes]
  | cons c cs ih =>
      have hchar := charOfBytes?_toUTF8 c
      rw [toUTF8_plain (h c List.mem_cons_self).1] at hchar
      have hlead (rest : List UInt8) :
          leadingChar? (c.toNat.toUInt8 :: rest) = some (c, 1) := by
        simp [leadingChar?, hchar]
      rw [List.map_cons, decodeBytes, hlead]
      exact congrArg (c :: ·) (ih fun d hd => h d (List.mem_cons_of_mem _ hd))

end Url

namespace Api

/-- A request of the session is found under its name. -/
theorem entryOf?_name {entry : Entry} (h : entry ∈ entries) : entryOf? entry.name = some entry := by
  have hdistinct : (entries.map (·.name)).Nodup := by decide
  obtain ⟨found, hfound⟩ := Option.isSome_iff_exists.mp
    (List.find?_isSome (p := (·.name == entry.name)) |>.mpr ⟨entry, h, beq_self_eq_true _⟩)
  have hname : found.name = entry.name := by simpa using List.find?_some hfound
  rw [entryOf?, hfound, List.inj_on_of_nodup_map hdistinct (List.mem_of_find?_eq_some hfound) h hname]

end Api

namespace Server.Route

/-- A path without escapes leads where its parts say. -/
theorem ofPath?_plain {path : String} (h : ∀ c ∈ path.toList, Url.IsPlain c) :
    ofPath? path =
      ofSegments? (((path.toList.dropWhile (· == '/')).splitOn '/').map String.ofList) := by
  rw [ofPath?, Url.unescape_plain h, Url.decodeBytes_plain h]

/-- A plain name leads to the request of that name, and so it does under `RPC2`. -/
theorem ofPath?_name {name : String} (hplain : ∀ c ∈ name.toList, Url.IsPlain c)
    (hslash : '/' ∉ name.toList) (hne : name ≠ "") :
    ofPath? ("/" ++ name) = (Api.entryOf? name).map call ∧
      ofPath? ("/RPC2/" ++ name) = (Api.entryOf? name).map call := by
  have hhead : name.toList.dropWhile (· == '/') = name.toList := by
    refine List.dropWhile_eq_self_iff.mpr fun hpos => ?_
    have hfirst : name.toList[0] ≠ '/' := fun h => hslash (h ▸ List.getElem_mem hpos)
    simpa using hfirst
  have hname : name.toList.splitOn '/' = [name.toList] := List.splitOn_eq_singleton hslash
  constructor
  · have hpath : ("/" ++ name).toList = '/' :: name.toList := by simp
    rw [ofPath?_plain (by simpa [hpath, Url.IsPlain] using hplain), hpath,
      List.dropWhile_cons_of_pos rfl, hhead, hname, List.map_singleton, String.ofList_toList]
    simp [ofSegments?]
  · let folder := ['R', 'P', 'C', '2']
    have hpath : ("/RPC2/" ++ name).toList = '/' :: (folder ++ '/' :: name.toList) := by
      simp [folder]
    have hstart : (folder ++ '/' :: name.toList).dropWhile (· == '/') =
        folder ++ '/' :: name.toList := rfl
    have hsplit : (folder ++ '/' :: name.toList).splitOn '/' = [folder, name.toList] := by
      rw [List.splitOn_append_cons_self_of_not_mem (by decide), hname]
    have hfolder : String.ofList folder = "RPC2" := rfl
    rw [ofPath?_plain (by simpa [hpath, folder, Url.IsPlain] using hplain), hpath,
      List.dropWhile_cons_of_pos rfl, hstart, hsplit, List.map_cons, List.map_singleton,
      String.ofList_toList, hfolder]
    rfl

/-- Every request of the session can be reached under its name and under `RPC2`. -/
theorem ofPath?_entry {entry : Api.Entry} (h : entry ∈ Api.entries) :
    ofPath? ("/" ++ entry.name) = some (call entry) ∧
      ofPath? ("/RPC2/" ++ entry.name) = some (call entry) := by
  have hchars : (Api.entries.flatMap (·.name.toList)).all
      (fun c => decide (Url.IsPlain c) && c != '/') = true := by cbv
  have hnames : ∀ e ∈ Api.entries, e.name ≠ "" := by decide
  have hplain : ∀ c ∈ entry.name.toList, Url.IsPlain c ∧ c ≠ '/' := fun c hc => by
    simpa using List.all_eq_true.mp hchars c (List.mem_flatMap.mpr ⟨entry, h, hc⟩)
  have hroutes := ofPath?_name (fun c hc => (hplain c hc).1) (fun hslash => (hplain _ hslash).2 rfl)
    (hnames entry h)
  rwa [Api.entryOf?_name h] at hroutes

end Server.Route

end BlockWorkbench
