/-
# The state file reads back

A state whose numbers fit into words is read back from its text (`SyncState.ofText_text`), and so from
the file it was saved to (`SyncState.load_of_saveOn`); the text of another version is refused
(`SyncState.tryLoad_of_saved`). Each part is read back from the document of its
JSON: a fingerprint, the symbols of a file, and the maps of both. Where the state is lost
(`SyncState.Lost`), the project counts as never seen.

Key definitions: `SyncState.InRange`, `SyncState.Lost`.
Key theorems: `Fingerprint.ofDocument?_toJson`, `FileSymbols.ofDocument?_toJson`,
`SyncState.ofDocument?_toJson`, `SyncState.ofText_text`, `SyncState.load_of_saveOn`,
`SyncState.tryLoad_of_saved`, `SyncState.load_of_lost`.
-/
import CodeAtlas.Proofs.FileTree
import CodeAtlas.Proofs.JsonText
import CodeAtlas.Sync.State

namespace CodeAtlas

/-! ### Reading by parts -/

theorem mapM_eq_some {α β : Type} {f : α → Option β} {g : α → β} :
    ∀ {l : List α}, (∀ a ∈ l, f a = some (g a)) → l.mapM f = some (l.map g)
  | [], _ => rfl
  | a :: l, h => by
    rw [List.mapM_cons, h a List.mem_cons_self,
      mapM_eq_some (l := l) fun b hb => h b (List.mem_cons_of_mem _ hb)]
    rfl

namespace Document

theorem ofJsonItems_eq (items : List Json) : ofJsonItems items = items.map ofJson := by
  induction items with
  | nil => rfl
  | cons v items ih => rw [ofJsonItems, ih, List.map_cons]

theorem ofJsonFields_eq (fields : List (String × Json)) :
    ofJsonFields fields = fields.map fun f => (some f.1, ofJson f.2) := by
  induction fields with
  | nil => rfl
  | cons f fields ih => rw [ofJsonFields, ih, List.map_cons]

/-- A list of values is read item by item. -/
theorem listOf?_ofJson {α : Type} {read : Document → Option α} (toJson : α → Json) {l : List α}
    (h : ∀ a ∈ l, read (ofJson (toJson a)) = some a) :
    listOf? read (ofJson (.array (l.map toJson))) = some l := by
  rw [ofJson, ofJsonItems_eq, List.map_map, listOf?]
  show ((l.map (ofJson ∘ toJson)).mapM read) = some l
  rw [List.mapM_map, mapM_eq_some (f := read ∘ (ofJson ∘ toJson)) (g := id) h, List.map_id]

/-- A map of values is read entry by entry. -/
theorem mapOf?_ofJson {α : Type} {read : Document → Option α} {toJson : α → Json}
    {m : SortedMap String α} (h : ∀ e ∈ m.entries, read (ofJson (toJson e.2)) = some e.2) :
    mapOf? read (ofJson (.object (m.entries.map fun e => (e.1, toJson e.2)))) = some m := by
  rw [ofJson, ofJsonFields_eq, mapOf?, List.map_map, List.mapM_map,
    mapM_eq_some (g := id), List.map_id, Option.map_some, SortedMap.ofList_entries]
  intro e he
  simp [h e he]

theorem intIn?_ofJson {low high n : Int} (hl : low ≤ n) (hh : n ≤ high) :
    intIn? low high (ofJson (.int n)) = some n := by
  have : (ofJson (.int n)).number? = some (.whole n) := rfl
  rw [intIn?, this]
  simp [hl, hh]

theorem int?_ofJson {n : Int} (h : Word.isSigned n = true) : int? (ofJson (.int n)) = some n := by
  simp only [Word.isSigned, Bool.and_eq_true, decide_eq_true_eq] at h
  exact intIn?_ofJson h.1 (by omega)

theorem nat?_ofJson {n : Nat} (h : n < twoTo 64) : nat? (ofJson (.nat n)) = some n := by
  rw [nat?, natBelow?, show Json.nat n = Json.int n from rfl,
    intIn?_ofJson (by omega) (by omega)]
  rfl

end Document

namespace NodeKind

theorem named?_name (k : NodeKind) : named? k.name = some k := by cases k <;> decide

theorem ofDocument?_toJson (k : NodeKind) : ofDocument? (.ofJson k.toJson) = some k := by
  rw [toJson, Document.ofJson, ofDocument?]
  exact named?_name k

end NodeKind

/-! ### Fingerprints and symbols -/

theorem Fingerprint.ofDocument?_toJson {p : Fingerprint} (hs : p.size < twoTo 64)
    (ht : Word.isSigned p.mtime = true) : ofDocument? (.ofJson p.toJson) = some p := by
  have hn := Document.nat?_ofJson hs
  have hi := Document.int?_ofJson ht
  obtain ⟨size, mtime, hash, readable⟩ := p
  cases readable <;>
    simp [toJson, Document.ofJson, Document.ofJsonFields, ofDocument?, Fields.of?, Fields.isSingle,
      Fields.required, Fields.withDefault, Fields.value?, hn, hi, Document.string?, Document.bool?]

theorem Symbol.ofDocument?_toJson (s : Symbol) : ofDocument? (.ofJson s.toJson) = some s := by
  have hk := NodeKind.ofDocument?_toJson s.kind
  obtain ⟨kind, name, id, exported, owner⟩ := s
  cases owner <;>
    simp [toJson, Document.ofJson, Document.ofJsonFields, ofDocument?, Fields.of?, Fields.isSingle,
      Fields.required, Fields.withDefault, Fields.value?, Fields.nullable, hk, Document.string?,
      Document.bool?]

theorem FileSymbols.ofDocument?_toJson (s : FileSymbols) :
    ofDocument? (.ofJson s.toJson) = some s := by
  have hl : Document.listOf? Symbol.ofDocument? (.ofJson (.array (s.symbols.map Symbol.toJson))) =
      some s.symbols := Document.listOf?_ofJson Symbol.toJson fun a _ => Symbol.ofDocument?_toJson a
  simp [toJson, Document.ofJsonFields, ofDocument?, Fields.of?, Fields.isSingle, Fields.required,
    Fields.value?, hl, Document.string?, show ∀ f, Document.ofJson (.object f) =
      .record (Document.ofJsonFields f) from fun _ => rfl, show ∀ t, Document.ofJson (.string t) =
      .text (some t) from fun _ => rfl]

/-! ### States -/

namespace SyncState

/-- The time and the fingerprints of the state fit into words. -/
structure InRange (s : SyncState) : Prop where
  lastSync : Word.isSigned s.lastSync = true
  files : ∀ {path f}, s.files.get? path = some f → f.size < twoTo 64 ∧ Word.isSigned f.mtime = true

/-- The numbers are checked file by file. -/
theorem inRange_iff {s : SyncState} : s.InRange ↔ Word.isSigned s.lastSync = true ∧
    ∀ e ∈ s.files.entries, e.2.size < twoTo 64 ∧ Word.isSigned e.2.mtime = true :=
  ⟨fun h => ⟨h.lastSync, fun _ he => h.files (SortedMap.get?_of_mem_entries he)⟩,
    fun h => ⟨h.1, fun hg => h.2 _ (SortedMap.get?_eq_some_iff.mp hg)⟩⟩

instance (s : SyncState) : Decidable s.InRange := decidable_of_iff _ inRange_iff.symm

theorem ofDocument?_toJson {s : SyncState} (h : s.InRange) : ofDocument? (.ofJson s.toJson) = some s := by
  have hi := Document.int?_ofJson h.lastSync
  have hf : Document.listOf? fileEntry?
      (.ofJson (.array (s.files.entries.map fun e => .array [.string e.1, e.2.toJson]))) =
      some s.files.entries := by
    refine Document.listOf?_ofJson
      (fun e : String × Fingerprint => .array [.string e.1, e.2.toJson]) fun e he => ?_
    obtain ⟨hs, ht⟩ := h.files (SortedMap.get?_of_mem_entries he)
    have := Fingerprint.ofDocument?_toJson hs ht
    simp [Document.ofJson, Document.ofJsonItems, fileEntry?, Document.string?, this]
  have hy : Document.mapOf? FileSymbols.ofDocument? (.ofJson (SymbolMap.toJson s.symbols)) =
      some s.symbols := Document.mapOf?_ofJson fun e _ => FileSymbols.ofDocument?_toJson e.2
  have ho : SortedMap.ofList s.files.entries = s.files := SortedMap.ofList_entries _
  simp [toJson, Document.ofJsonFields, ofDocument?, Fields.of?, Fields.isSingle, Fields.required,
    Fields.withDefault, Fields.value?, hi, hf, hy, ho, Document.string?,
    show ∀ f, Document.ofJson (.object f) = .record (Document.ofJsonFields f) from fun _ => rfl,
    show ∀ t, Document.ofJson (.string t) = .text (some t) from fun _ => rfl]

theorem isPlain_int {n : Int} (h : Word.isSigned n = true) : (Json.int n).IsPlain := by
  have h63 : twoTo 63 = 9223372036854775808 := by decide
  have h64 : twoTo 64 = 18446744073709551616 := by decide
  simp only [Word.isSigned, Bool.and_eq_true, decide_eq_true_eq] at h
  show -(twoTo 63 : Int) ≤ n ∧ n < (twoTo 64 : Int)
  omega

theorem isPlain_nat {n : Nat} (h : n < twoTo 64) : (Json.nat n).IsPlain := by
  show -(twoTo 63 : Int) ≤ n ∧ (n : Int) < (twoTo 64 : Int)
  omega

theorem isPlain_fingerprint {p : Fingerprint} (hs : p.size < twoTo 64)
    (ht : Word.isSigned p.mtime = true) : p.toJson.IsPlain := by
  have hn := isPlain_nat hs
  have hi := isPlain_int ht
  rw [Fingerprint.toJson, Json.IsPlain, Json.allPlain_iff]
  intro f hf
  rcases List.mem_append.mp hf with hf | hf
  · simp only [List.mem_cons, List.not_mem_nil, or_false] at hf
    rcases hf with rfl | rfl | rfl
    · exact hn
    · exact hi
    · trivial
  · split at hf
    · simp at hf
    · rw [List.mem_singleton] at hf
      subst hf
      trivial

theorem isPlain_fileSymbols (s : FileSymbols) : s.toJson.IsPlain := by
  refine ⟨trivial, ?_, trivial⟩
  rw [Json.IsPlain, Json.arePlain_iff]
  intro v hv
  obtain ⟨a, _, rfl⟩ := List.mem_map.mp hv
  rw [Symbol.toJson, Json.IsPlain, Json.allPlain_iff]
  intro f hf
  simp only [List.mem_append, List.mem_cons, List.not_mem_nil, or_false, Option.mem_toList,
    Option.map_eq_some_iff] at hf
  rcases hf with (rfl | rfl | rfl | rfl) | ⟨o, _, rfl⟩ <;> trivial

theorem isPlain_toJson {s : SyncState} (h : s.InRange) : s.toJson.IsPlain := by
  refine ⟨isPlain_int h.lastSync, ?_, ?_, trivial, trivial⟩
  · rw [Json.IsPlain, Json.arePlain_iff]
    intro v hv
    obtain ⟨e, he, rfl⟩ := List.mem_map.mp hv
    obtain ⟨hs, ht⟩ := h.files (SortedMap.get?_of_mem_entries he)
    exact ⟨trivial, isPlain_fingerprint hs ht, trivial⟩
  · rw [SymbolMap.toJson, Json.IsPlain, Json.allPlain_iff]
    intro f hf
    obtain ⟨e, _, rfl⟩ := List.mem_map.mp hf
    exact isPlain_fileSymbols e.2

theorem ofText_eq {s : SyncState} (h : s.InRange) : ofText s.text =
    if s.version == currentVersion then .ok s else .error (.version s.version) := by
  rw [ofText, text, Document.parse?_pretty (isPlain_toJson h), Option.bind_some,
    ofDocument?_toJson h]

/-- A state is read back from its text. -/
theorem ofText_text {s : SyncState} (h : s.InRange) (hv : s.version = currentVersion) :
    ofText s.text = .ok s := by
  rw [ofText_eq h]
  simp [hv]

/-- A state of another version is refused. -/
theorem ofText_of_version {s : SyncState} (h : s.InRange) (hv : s.version ≠ currentVersion) :
    ofText s.text = .error (.version s.version) := by
  rw [ofText_eq h]
  simp [hv]

theorem textOf?_bytes (s : String) : FileSystem.textOf? (Ident.bytes s) = some s := by
  have hb : (⟨(Ident.bytes s).toArray⟩ : ByteArray) = s.toByteArray := by
    simp [Ident.bytes]
  rw [FileSystem.textOf?, hb, String.fromUTF8?, dif_pos s.isValidUTF8]
  rfl

/-- What a file tells of a state is what its text tells. -/
theorem tryLoad_of_read {fs : FileSystem} {path text : String}
    (hr : fs.read path = .ok (Ident.bytes text)) : tryLoad fs path = (ofText text).map some := by
  rw [tryLoad, hr]
  simp only [textOf?_bytes]

/-- A state is loaded from its text. -/
theorem load_of_read {s : SyncState} (h : s.InRange) (hv : s.version = currentVersion)
    {fs : FileSystem} {path : String} (hr : fs.read path = .ok (Ident.bytes s.text)) :
    load fs path = s := by
  rw [load, tryLoad_of_read hr, ofText_text h hv]
  rfl

/-- What saving does: the directories on the way are made, and then the file is written. -/
theorem saveOn_eq_ok {disk : Medium} {s : SyncState} {fs fs' : FileSystem} {path : String} {now : Int}
    (h : s.saveOn disk fs path now = (fs', .ok ())) :
    ∃ g, fs.makeDirsOn disk (directoryOf path) = (g, .ok ()) ∧
      g.write path (Ident.bytes s.text) now = .ok fs' := by
  unfold saveOn at h
  split at h
  · cases h
  · rename_i g hmake
    split at h
    · rename_i hreplace
      cases h
      exact ⟨g, hmake, FileSystem.write_of_replaceOn hreplace⟩
    · cases h

/-- A state that was saved is in the file as its text. -/
theorem read_of_saveOn {disk : Medium} {s : SyncState} {fs fs' : FileSystem} {path : String}
    {now : Int} (hs : s.saveOn disk fs path now = (fs', .ok ())) :
    fs'.read path = .ok (Ident.bytes s.text) := by
  obtain ⟨_, _, hwrite⟩ := saveOn_eq_ok hs
  exact FileSystem.read_of_write hwrite

/-- What was saved is loaded. -/
theorem load_of_saveOn {disk : Medium} {s : SyncState} (h : s.InRange) (hv : s.version = currentVersion)
    {fs fs' : FileSystem} {path : String} {now : Int}
    (hs : s.saveOn disk fs path now = (fs', .ok ())) : load fs' path = s :=
  load_of_read h hv (read_of_saveOn hs)

/-- A saved state is in the file as its text, and a file with the text of a state gives back the very
state, or tells that its version is not the one that is read. -/
theorem tryLoad_of_saved {s : SyncState} (h : s.InRange) :
    (∀ (disk : Medium) (fs fs' : FileSystem) (path : String) (now : Int),
      s.saveOn disk fs path now = (fs', .ok ()) → fs'.read path = .ok (Ident.bytes s.text)) ∧
    ∀ (fs : FileSystem) (path : String), fs.read path = .ok (Ident.bytes s.text) →
      (s.version = "2" → tryLoad fs path = .ok (some s)) ∧
      (s.version ≠ "2" → ∃ r, tryLoad fs path = .error r ∧ r.fault path =
        .stateCorruption path ("unsupported version " ++ Text.quoted s.version)) := by
  refine ⟨fun _ _ _ _ _ hs => read_of_saveOn hs, fun fs path hr => ⟨fun hv => ?_, fun hv => ?_⟩⟩
  · rw [tryLoad_of_read hr, ofText_text h hv]
    rfl
  · refine ⟨.version s.version, ?_, rfl⟩
    rw [tryLoad_of_read hr, ofText_of_version h hv]
    rfl

/-- A state at the edge of what fits, with a path and names that have to be escaped. -/
def edge (version : String) : SyncState where
  lastSync := -(twoTo 63 : Int)
  files := .ofList [("a\n\"\\é😀\t.ts", ⟨twoTo 64 - 1, twoTo 63 - 1, "\u0001", false⟩),
    ("", ⟨0, -1, "", true⟩)]
  symbols := .ofList [("ü.ts", ⟨"\u0000", [⟨.function, "m", "λ", true, some "\"C\""⟩,
    ⟨.typeAlias, "", "", false, none⟩]⟩)]
  version

/-- The edge state is in range, whatever its version, and is saved to an empty disk. -/
theorem save_edge : ∀ version ∈ ["2", "3\n"], (edge version).InRange ∧
    ((edge version).save ⟨.empty, []⟩ "d/state.json" 0).2.isOk = true := by
  decide +kernel

/-- The edge state is saved and comes back; that of another version is saved and refused. -/
theorem tryLoad_edge : ∃ fs fs' : FileSystem,
    (edge "2").save ⟨.empty, []⟩ "d/state.json" 0 = (fs, .ok ()) ∧
    tryLoad fs "d/state.json" = .ok (some (edge "2")) ∧
    (edge "3\n").save ⟨.empty, []⟩ "d/state.json" 0 = (fs', .ok ()) ∧
    ∃ r, tryLoad fs' "d/state.json" = .error r ∧
      r.fault "d/state.json" = .stateCorruption "d/state.json" "unsupported version \"3\\n\"" := by
  obtain ⟨hin, hok⟩ := save_edge "2" (by decide)
  obtain ⟨hin', hok'⟩ := save_edge "3\n" (by decide)
  cases hs : (edge "2").save ⟨.empty, []⟩ "d/state.json" 0 with
  | mk fs saved =>
    cases hs' : (edge "3\n").save ⟨.empty, []⟩ "d/state.json" 0 with
    | mk fs' saved' =>
      rw [hs] at hok
      rw [hs'] at hok'
      cases saved with
      | error e => cases hok
      | ok _ =>
        cases saved' with
        | error e => cases hok'
        | ok _ =>
          obtain ⟨hread, hback⟩ := tryLoad_of_saved hin
          obtain ⟨hread', hback'⟩ := tryLoad_of_saved hin'
          refine ⟨fs, fs', rfl, (hback fs _ (hread _ _ _ _ _ hs)).1 rfl, rfl, ?_⟩
          exact (hback' fs' _ (hread' _ _ _ _ _ hs')).2 (by decide)

/-- No state is in the file: it is missing or cannot be read, or its text is refused. -/
def Lost (fs : FileSystem) (path : String) : Prop := ∀ s, tryLoad fs path ≠ .ok (some s)

section Lost

variable {fs : FileSystem} {path : String}

theorem load_of_lost (h : Lost fs path) : load fs path = fresh := by
  unfold load
  split
  · exact absurd ‹_› (h _)
  · rfl
  · rfl

theorem lost_of_not_isFile (h : fs.isFile path = false) : Lost fs path := by
  intro s hs
  have hne : ∀ c, fs.read path ≠ .ok c := fun c hc => by
    rw [FileSystem.isFile_of_read hc] at h
    cases h
  rw [tryLoad] at hs
  cases hr : fs.read path with
  | ok c => exact hne c hr
  | error e => cases e <;> simp [hr] at hs

theorem lost_of_refused {text : String} {e : Refusal} (hr : fs.read path = .ok (Ident.bytes text))
    (he : ofText text = .error e) : Lost fs path := by
  intro s hs
  rw [tryLoad_of_read hr, he] at hs
  cases hs

/-- Where there is no file, the project was never seen. -/
theorem load_of_not_isFile (h : fs.isFile path = false) : load fs path = fresh :=
  load_of_lost (lost_of_not_isFile h)

end Lost

end SyncState

end CodeAtlas
