/-
# What has one id

An id shows a tag and part of the digest of its fields. Each field goes into the digest with its length
in front, so the fields can be read back from the input (`Ident.encode_injective`), and what is left is
whether two lists of fields can be alike.

The last field of a declared name is its mark: nothing for an exported name, the path of the file for
another, and the class for a method, after the path if the class is not exported. A path that ends in the
extension of a source file is none of the others, since a class name has neither a dot nor a number sign
(`Mark.eq_of_text`). So, where the digests keep their inputs apart, names with one id are one kind,
package and name and have one mark (`FileSymbols.alike_of_id`).

Key definitions: `Ident.digest`, `Mark`, `Key`, `Scope.key`, `FileFacts.keys`, `Key.Apart`.
Key theorems: `Ident.encode_injective`, `Mark.eq_of_text`, `Key.eq_of_id`, `FileSymbols.alike_of_id`.
-/
import CodeAtlas.Proofs.Building
import CodeAtlas.Source.Grammar

namespace CodeAtlas

/-! ### The input of a digest -/

namespace Ident

/-- The part of the digest of an input that an id shows. -/
def digest (input : List UInt8) : List Char := (Sha256.hexChars input).take 32

/-- The number of bytes of a text fits into the eight bytes in front of it. -/
def Fits (s : String) : Prop := (bytes s).length < twoTo 64

instance (s : String) : Decidable (Fits s) := inferInstanceAs (Decidable (_ < _))

theorem toList_ofFields (tag : String) (fields : List String) :
    (ofFields tag fields).toList = tag.toList ++ ':' :: digest (encode fields) := by
  simp [ofFields, digest]

/-- A number is known from its eight bytes. -/
theorem wordBytes_injective {n m : Nat} (hn : n < twoTo 64) (hm : m < twoTo 64)
    (h : Sha256.wordBytes n = Sha256.wordBytes m) : n = m := by
  have hbyte : ∀ shift ∈ [56, 48, 40, 32, 24, 16, 8, 0],
      n / twoTo shift % 256 = m / twoTo shift % 256 := by
    intro shift hshift
    have he := List.map_inj_left.mp h shift hshift
    simpa using congrArg UInt8.toNat he
  simp only [List.forall_mem_cons, twoTo, Nat.pow_eq, Nat.reducePow] at hbyte hn hm
  omega

theorem bytes_injective {s t : String} (h : bytes s = bytes t) : s = t := by
  have hb : s.toUTF8 = t.toUTF8 := by
    apply ByteArray.ext
    exact Array.toList_inj.mp h
  exact String.toByteArray_inj.mp hb

/-- The first field is known from what it goes in front of. -/
theorem field_append_injective {s t : String} {x y : List UInt8} (hs : Fits s) (ht : Fits t)
    (h : field s ++ x = field t ++ y) : s = t ∧ x = y := by
  rw [field, field, List.append_assoc, List.append_assoc] at h
  obtain ⟨hlength, hrest⟩ := List.append_inj h rfl
  obtain ⟨hbytes, hx⟩ := List.append_inj hrest (wordBytes_injective hs ht hlength)
  exact ⟨bytes_injective hbytes, hx⟩

/-- The fields are known from the input they make. -/
theorem encode_injective : ∀ {l l' : List String}, (∀ s ∈ l, Fits s) → (∀ s ∈ l', Fits s) →
    encode l = encode l' → l = l'
  | [], [], _, _, _ => rfl
  | [], t :: l', _, _, h => nomatch h
  | s :: l, [], _, _, h => nomatch h
  | s :: l, t :: l', hl, hl', h => by
    rw [List.forall_mem_cons] at hl hl'
    rw [encode, encode, List.flatMap_cons, List.flatMap_cons] at h
    obtain ⟨rfl, hrest⟩ := field_append_injective hl.1 hl'.1 h
    rw [encode_injective hl.2 hl'.2 hrest]

end Ident

/-! ### Marks -/

/-- What tells a declared name from others of its kind, package and name. -/
inductive Mark where
  | exported
  | inFile (path : String)
  | ofClass (className : String)
  | ofLocalClass (path className : String)
  deriving DecidableEq

namespace Mark

/-- The text of a mark. -/
def text? : Mark → Option String
  | .exported => none
  | .inFile path => some path
  | .ofClass className => some className
  | .ofLocalClass path className => some (path ++ "#" ++ className)

end Mark

/-- The path ends in the extension of a source file. -/
def Path.EndsAsSource (path : String) : Prop :=
  ∃ stem ext, path.toList = stem ++ '.' :: ext ∧ (Grammar.ofExtension? (.ofList ext)).isSome = true

/-- A name that a class may have. -/
structure IsClassName (name : String) : Prop where
  ne_empty : name ≠ ""
  noDot : '.' ∉ name.toList
  noHash : '#' ∉ name.toList

instance (name : String) : Decidable (IsClassName name) :=
  decidable_of_iff (name ≠ "" ∧ '.' ∉ name.toList ∧ '#' ∉ name.toList)
    ⟨fun h => ⟨h.1, h.2.1, h.2.2⟩, fun h => ⟨h.1, h.2, h.3⟩⟩

theorem Text.mem_lowerFrom_hash : ∀ {cs : List Char} (before : List Char), '#' ∈ cs →
    '#' ∈ lowerFrom before cs
  | c :: cs, before, h => by
    rw [lowerFrom]
    rcases List.mem_cons.mp h with rfl | h
    · rw [if_neg (by decide), if_neg (by decide)]
      exact List.mem_append_left _ (by decide)
    · exact List.mem_append_right _ (mem_lowerFrom_hash _ h)

/-- No number sign is in the extension of a source file. -/
theorem Grammar.noHash_of_extension {ext : List Char}
    (h : (ofExtension? (.ofList ext)).isSome = true) : '#' ∉ ext := by
  intro hmem
  have hlower : '#' ∈ (Text.lower (.ofList ext)).toList := by
    rw [Text.lower, String.toList_ofList, String.toList_ofList]
    exact Text.mem_lowerFrom_hash [] hmem
  have hnone : ∀ e ∈ ["ts", "mts", "cts", "js", "mjs", "cjs", "tsx", "jsx"], '#' ∉ e.toList := by
    decide
  have hknown : Text.lower (.ofList ext) ∈
      ["ts", "mts", "cts", "js", "mjs", "cjs", "tsx", "jsx"] := by
    unfold ofExtension? at h
    simp only at h
    split at h
    · rename_i hin
      exact List.mem_append_left ["tsx", "jsx"] (List.contains_iff_mem.mp hin)
    · split at h
      · rename_i hin
        exact List.mem_append_right ["ts", "mts", "cts", "js", "mjs", "cjs"]
          (List.contains_iff_mem.mp hin)
      · cases h
  exact hnone _ hknown hlower

section Texts

variable {path path' c c' : String}

theorem Path.EndsAsSource.dot_mem (h : EndsAsSource path) : '.' ∈ path.toList := by
  obtain ⟨stem, ext, hp, _⟩ := h
  simp [hp]

theorem Path.EndsAsSource.ne_empty (h : EndsAsSource path) : path ≠ "" := by
  rintro rfl
  exact absurd h.dot_mem (by decide)

theorem Path.EndsAsSource.ne_className (h : EndsAsSource path) (hc : IsClassName c) : path ≠ c := by
  rintro rfl
  exact hc.noDot h.dot_mem

theorem toList_localClass (path c : String) :
    (path ++ "#" ++ c).toList = path.toList ++ '#' :: c.toList := by
  simp

theorem localClass_ne_empty (path c : String) : path ++ "#" ++ c ≠ "" := by
  intro h
  have := congrArg String.toList h
  simp at this

theorem IsClassName.ne_localClass (hc : IsClassName c) (path c' : String) :
    c ≠ path ++ "#" ++ c' := by
  rintro rfl
  exact hc.noHash (by simp)

/-- The mark of a method of a class that is not exported is no path: after its last dot there is a number
sign. -/
theorem Path.EndsAsSource.ne_localClass (h : EndsAsSource path) (hc : IsClassName c) :
    path ≠ path' ++ "#" ++ c := by
  intro he
  obtain ⟨stem, ext, hp, hext⟩ := h
  have hl : stem ++ '.' :: ext = path'.toList ++ '#' :: c.toList := by
    rw [← hp, he, toList_localClass]
  rcases List.append_eq_append_iff.mp hl with ⟨mid, _, hmid⟩ | ⟨mid, _, hmid⟩
  · cases mid with
    | nil => cases hmid
    | cons d mid =>
      -- the number sign is after the dot, in the extension
      rw [List.cons_append, List.cons.injEq] at hmid
      exact Grammar.noHash_of_extension hext (by simp [hmid.2])
  · -- the dot is after the number sign, in the class name
    have hdot : '.' ∈ '#' :: c.toList := by simp [hmid]
    rcases List.mem_cons.mp hdot with hd | hd
    · cases hd
    · exact hc.noDot hd

/-- The path and the class are known from the text of both. -/
theorem eq_of_localClass (hc : IsClassName c) (hc' : IsClassName c')
    (h : path ++ "#" ++ c = path' ++ "#" ++ c') : path = path' ∧ c = c' := by
  have hl : path.toList ++ '#' :: c.toList = path'.toList ++ '#' :: c'.toList := by
    rw [← toList_localClass, h, toList_localClass]
  rcases List.append_eq_append_iff.mp hl with ⟨mid, hpath, hmid⟩ | ⟨mid, hpath, hmid⟩
  · cases mid with
    | nil =>
      rw [List.append_nil] at hpath
      rw [List.nil_append, List.cons.injEq] at hmid
      exact ⟨String.toList_inj.mp hpath.symm, String.toList_inj.mp hmid.2⟩
    | cons d mid =>
      rw [List.cons_append, List.cons.injEq] at hmid
      exact absurd (by simp [hmid.2]) hc.noHash
  · cases mid with
    | nil =>
      rw [List.append_nil] at hpath
      rw [List.nil_append, List.cons.injEq] at hmid
      exact ⟨String.toList_inj.mp hpath, String.toList_inj.mp hmid.2.symm⟩
    | cons d mid =>
      rw [List.cons_append, List.cons.injEq] at hmid
      exact absurd (by simp [hmid.2]) hc'.noHash

end Texts

namespace Mark

/-- The path in a mark is that of a source file, and the class in it has a name. -/
def Sound : Mark → Prop
  | .exported => True
  | .inFile path => Path.EndsAsSource path
  | .ofClass className => IsClassName className
  | .ofLocalClass path className => Path.EndsAsSource path ∧ IsClassName className

/-- A mark is known from its text, where none counts as the empty text. -/
theorem eq_of_text {m m' : Mark} (hm : m.Sound) (hm' : m'.Sound)
    (h : m.text?.getD "" = m'.text?.getD "") : m = m' := by
  cases m with
  | exported =>
    cases m' with
    | exported => rfl
    | inFile path => exact absurd h.symm (Path.EndsAsSource.ne_empty hm')
    | ofClass c => exact absurd h.symm hm'.ne_empty
    | ofLocalClass path c => exact absurd h.symm (localClass_ne_empty path c)
  | inFile path =>
    cases m' with
    | exported => exact absurd h (Path.EndsAsSource.ne_empty hm)
    | inFile path' => exact congrArg inFile h
    | ofClass c => exact absurd h (Path.EndsAsSource.ne_className hm hm')
    | ofLocalClass path' c => exact absurd h (Path.EndsAsSource.ne_localClass hm hm'.2)
  | ofClass c =>
    cases m' with
    | exported => exact absurd h hm.ne_empty
    | inFile path => exact absurd h.symm (Path.EndsAsSource.ne_className hm' hm)
    | ofClass c' => exact congrArg ofClass h
    | ofLocalClass path c' => exact absurd h (hm.ne_localClass path c')
  | ofLocalClass path c =>
    cases m' with
    | exported => exact absurd h (localClass_ne_empty path c)
    | inFile path' => exact absurd h.symm (Path.EndsAsSource.ne_localClass hm' hm.2)
    | ofClass c' => exact absurd h.symm (hm'.ne_localClass path c)
    | ofLocalClass path' c' =>
      obtain ⟨rfl, rfl⟩ := eq_of_localClass hm.2 hm'.2 h
      rfl

end Mark

/-! ### Keys -/

/-- What the id of a declared name is made of. -/
structure Key where
  kind : NodeKind
  package : String
  name : String
  mark : Mark
  deriving DecidableEq

namespace Key

/-- The fields that define the id. -/
def fields (k : Key) : List String := Ident.nodeFields k.kind k.package k.name k.mark.text?

/-- The id. -/
def id (k : Key) : String := Ident.node k.kind k.package k.name k.mark.text?

/-- The digests of the keys keep apart whatever they encode to, and every field fits. -/
structure Apart (keys : List Key) : Prop where
  fits : ∀ k ∈ keys, ∀ s ∈ k.fields, Ident.Fits s
  digests : ∀ k ∈ keys, ∀ l ∈ keys,
    Ident.digest (Ident.encode k.fields) = Ident.digest (Ident.encode l.fields) →
    Ident.encode k.fields = Ident.encode l.fields

instance (keys : List Key) : Decidable (Apart keys) :=
  decidable_of_iff ((∀ k ∈ keys, ∀ s ∈ k.fields, Ident.Fits s) ∧ ∀ k ∈ keys, ∀ l ∈ keys,
    Ident.digest (Ident.encode k.fields) = Ident.digest (Ident.encode l.fields) →
    Ident.encode k.fields = Ident.encode l.fields) ⟨fun h => ⟨h.1, h.2⟩, fun h => ⟨h.1, h.2⟩⟩

variable {k l : Key} {keys : List Key}

/-- A key is known from its fields. -/
theorem eq_of_fields (hk : k.mark.Sound) (hl : l.mark.Sound) (hkind : k.kind = l.kind)
    (h : k.fields = l.fields) : k = l := by
  obtain ⟨kind, package, name, mark⟩ := k
  obtain ⟨kind', package', name', mark'⟩ := l
  simp only [fields, Ident.nodeFields, List.cons.injEq, and_true] at h
  obtain ⟨_, rfl, rfl, htext⟩ := h
  obtain rfl : kind = kind' := hkind
  obtain rfl : mark = mark' := Mark.eq_of_text hk hl htext
  rfl

/-- An id tells the kind and shows the digest of the fields. -/
theorem of_id (h : k.id = l.id) : k.kind = l.kind ∧
    Ident.digest (Ident.encode k.fields) = Ident.digest (Ident.encode l.fields) := by
  have hkind : k.kind = l.kind := by
    apply NodeKind.tagged_unique (NodeKind.tagged_node k.kind k.package k.name k.mark.text?)
    rw [show Ident.node k.kind k.package k.name k.mark.text? = l.id from h]
    exact NodeKind.tagged_node ..
  have hlist : k.kind.tag.toList ++ ':' :: Ident.digest (Ident.encode k.fields) =
      l.kind.tag.toList ++ ':' :: Ident.digest (Ident.encode l.fields) := by
    calc k.kind.tag.toList ++ ':' :: Ident.digest (Ident.encode k.fields)
        = k.id.toList := (Ident.toList_ofFields ..).symm
      _ = l.id.toList := by rw [h]
      _ = l.kind.tag.toList ++ ':' :: Ident.digest (Ident.encode l.fields) :=
          Ident.toList_ofFields ..
  rw [hkind] at hlist
  exact ⟨hkind, List.tail_eq_of_cons_eq (List.append_cancel_left hlist)⟩

/-- Where digests keep apart what they are of, a key is known from its id. -/
theorem eq_of_id (h : Apart keys) (hk : k ∈ keys) (hl : l ∈ keys) (hmk : k.mark.Sound)
    (hml : l.mark.Sound) (hid : k.id = l.id) : k = l := by
  obtain ⟨hkind, hdigest⟩ := of_id hid
  have hinput := h.digests k hk l hl hdigest
  have hfields := Ident.encode_injective (h.fits k hk) (h.fits l hl) hinput
  exact eq_of_fields hmk hml hkind hfields

end Key

/-! ### The keys of a file -/

/-- The class that a declaration is a method of. -/
def Declaration.className? : Declaration → Option String
  | .function f => f.className
  | _ => none

namespace Scope

/-- The mark of a name, by the class it is declared in, if any. -/
def mark (s : Scope) (className? : Option String) (name : String) : Mark :=
  match className? with
  | some c => if s.isExported c then .ofClass c else .ofLocalClass s.path c
  | none => if s.isExported name then .exported else .inFile s.path

/-- The key of a name. -/
def key (s : Scope) (kind : NodeKind) (className? : Option String) (name : String) : Key :=
  ⟨kind, s.package, name, s.mark className? name⟩

variable {s s' : Scope} {d : Declaration} {x : Symbol}

theorem topLevelId_eq (s : Scope) (kind : NodeKind) (name : String) :
    s.topLevelId kind name = (s.key kind none name).id := by
  rw [topLevelId, Key.id, key, mark]
  by_cases h : s.isExported name = true
  · simp [h, Mark.text?]
  · simp [h, Mark.text?]

theorem methodId_eq (s : Scope) (className name : String) :
    s.methodId className name = (s.key .function (some className) name).id := by
  rw [methodId, Key.id, key, mark]
  by_cases h : s.isExported className = true
  · simp [h, Mark.text?]
  · simp [h, Mark.text?]

/-- The symbol of a declaration has the id of its key, the class as its owner if it is a method, and if it
is none, it says whether the name is exported. -/
theorem of_symbol? (h : s.symbol? d = some x) : x.id = (s.key x.kind d.className? x.name).id ∧
    x.owner = d.className?.map s.classId ∧
    (d.className? = none → x.exported = s.isExported x.name) := by
  cases d with
  | function f =>
    rw [symbol?] at h
    rw [Declaration.className?]
    cases hc : f.className with
    | none =>
      simp only [hc] at h
      cases h
      exact ⟨topLevelId_eq .., rfl, fun _ => rfl⟩
    | some c =>
      simp only [hc] at h
      cases h
      exact ⟨methodId_eq .., rfl, fun hn => by cases hn⟩
  | classType c =>
    cases h
    exact ⟨topLevelId_eq .., rfl, fun _ => rfl⟩
  | interface i =>
    cases h
    exact ⟨topLevelId_eq .., rfl, fun _ => rfl⟩
  | typeAlias t =>
    cases h
    exact ⟨topLevelId_eq .., rfl, fun _ => rfl⟩
  | «import» i => cases h
  | «export» e => cases h

/-- Names with one mark are both at the top of their files or both in classes of one name, and both
exported or both known by one path. -/
theorem of_mark_eq {c c' : Option String} {name : String} (h : s.mark c name = s'.mark c' name) :
    c = c' ∧ (s.isExported (c.getD name) = true ∧ s'.isExported (c.getD name) = true ∨
      s.isExported (c.getD name) = false ∧ s'.isExported (c.getD name) = false ∧ s.path = s'.path) := by
  unfold mark at h
  cases c with
  | none =>
    cases c' with
    | none =>
      refine ⟨rfl, ?_⟩
      simp only [Option.getD_none] at h ⊢
      by_cases he : s.isExported name = true <;> by_cases he' : s'.isExported name = true <;>
        simp_all
    | some c' =>
      simp only at h
      split at h <;> split at h <;> cases h
  | some c =>
    cases c' with
    | none =>
      simp only at h
      split at h <;> split at h <;> cases h
    | some c' =>
      simp only [Option.getD_some] at h ⊢
      by_cases he : s.isExported c = true <;> by_cases he' : s'.isExported c' = true <;>
        simp_all

end Scope

namespace FileFacts

/-- The keys of the names that a file declares. -/
def keys (f : FileFacts) : List Key :=
  f.declarations.filterMap fun d => ((Scope.ofFacts f).symbol? d).map fun x =>
    (Scope.ofFacts f).key x.kind d.className? x.name

/-- The file declares the symbol at its top, or as a method of a class. -/
def Declares (f : FileFacts) (className? : Option String) (x : Symbol) : Prop :=
  ∃ d ∈ f.declarations, (Scope.ofFacts f).symbol? d = some x ∧ d.className? = className?

/-- The path of the file ends as that of a source file, and methods are in classes that have names. -/
structure WellNamed (f : FileFacts) : Prop where
  path : Path.EndsAsSource f.path
  classes : ∀ d ∈ f.declarations, ∀ c, d.className? = some c → IsClassName c

variable {f : FileFacts} {d : Declaration} {x : Symbol}

theorem key_mem_keys (f : FileFacts) (hd : d ∈ f.declarations)
    (h : (Scope.ofFacts f).symbol? d = some x) :
    (Scope.ofFacts f).key x.kind d.className? x.name ∈ f.keys :=
  List.mem_filterMap.mpr ⟨d, hd, by rw [h, Option.map_some]⟩

/-- The marks in a file with proper names are sound. -/
theorem WellNamed.sound_key (h : f.WellNamed) (hd : d ∈ f.declarations) (x : Symbol) :
    ((Scope.ofFacts f).key x.kind d.className? x.name).mark.Sound := by
  unfold Scope.key Scope.mark
  cases hc : d.className? with
  | none =>
    simp only
    split
    · trivial
    · exact h.path
  | some c =>
    simp only
    split
    · exact h.classes d hd c hc
    · exact ⟨h.path, h.classes d hd c hc⟩

end FileFacts

/-- How names of two files share what their ids are made of: as exported names, as names that one file
keeps to itself, as methods of a class that both files export, or as methods of a class that one file
keeps to itself. -/
inductive FileFacts.Share (f g : FileFacts) (x y : Symbol) : Prop
  | exported (hx : f.Declares none x) (hy : g.Declares none y) (hxe : x.exported = true)
    (hye : y.exported = true)
  | inFile (hx : f.Declares none x) (hy : g.Declares none y) (hxe : x.exported = false)
    (hye : y.exported = false) (hpath : f.path = g.path)
  | ofClass (c : String) (hx : f.Declares (some c) x) (hy : g.Declares (some c) y)
    (hf : (Scope.ofFacts f).isExported c = true) (hg : (Scope.ofFacts g).isExported c = true)
  | ofLocalClass (c : String) (hx : f.Declares (some c) x) (hy : g.Declares (some c) y)
    (hf : (Scope.ofFacts f).isExported c = false) (hg : (Scope.ofFacts g).isExported c = false)
    (hpath : f.path = g.path)

/-- Names with one id, where digests are apart, have one kind, package and name and share the rest. -/
theorem FileSymbols.alike_of_id {f g : FileFacts} {x y : Symbol} (hf : f.WellNamed) (hg : g.WellNamed)
    (happart : Key.Apart (f.keys ++ g.keys)) (hx : x ∈ (FileSymbols.ofFacts f).symbols)
    (hy : y ∈ (FileSymbols.ofFacts g).symbols) (hid : x.id = y.id) :
    x.kind = y.kind ∧ (FileSymbols.ofFacts f).package = (FileSymbols.ofFacts g).package ∧
      x.name = y.name ∧ f.Share g x y := by
  obtain ⟨d, hd, hdx⟩ := List.mem_filterMap.mp hx
  obtain ⟨e, he, hey⟩ := List.mem_filterMap.mp hy
  obtain ⟨hxid, _, hxe⟩ := Scope.of_symbol? hdx
  obtain ⟨hyid, _, hye⟩ := Scope.of_symbol? hey
  rw [hxid, hyid] at hid
  have hkeys := Key.eq_of_id happart (List.mem_append_left _ (f.key_mem_keys hd hdx))
    (List.mem_append_right _ (g.key_mem_keys he hey)) (hf.sound_key hd x) (hg.sound_key he y) hid
  obtain ⟨hkind, hpackage, hname, hmark⟩ := Key.mk.inj hkeys
  rw [← hname] at hmark
  obtain ⟨hclass, hwhere⟩ := Scope.of_mark_eq hmark
  refine ⟨hkind, hpackage, hname, ?_⟩
  have hdeclares : f.Declares d.className? x := ⟨d, hd, hdx, rfl⟩
  have hdeclares' : g.Declares d.className? y := ⟨e, he, hey, hclass.symm⟩
  cases hc : d.className? with
  | none =>
    have hc' : e.className? = none := hclass.symm.trans hc
    rw [hc] at hdeclares hdeclares' hwhere
    rw [← hname] at hye
    rcases hwhere with ⟨hexp, hexp'⟩ | ⟨hexp, hexp', hpath⟩
    · exact .exported hdeclares hdeclares' ((hxe hc).trans hexp) ((hye hc').trans hexp')
    · exact .inFile hdeclares hdeclares' ((hxe hc).trans hexp) ((hye hc').trans hexp') hpath
  | some c =>
    rw [hc] at hdeclares hdeclares' hwhere
    rcases hwhere with ⟨hexp, hexp'⟩ | ⟨hexp, hexp', hpath⟩
    · exact .ofClass c hdeclares hdeclares' hexp hexp'
    · exact .ofLocalClass c hdeclares hdeclares' hexp hexp' hpath

namespace Trial

/-- A function without parameters that makes calls, exported unless it is a method. -/
def function (className : Option String) (name : String) (calls : List String) : FunctionInfo :=
  ⟨name, [], none, false, false, className.isNone, false, none, className, 1, 1, calls, 1, none⟩

/-- A method that makes no calls. -/
def method (className name : String) : Declaration := .function (function (some className) name [])

/-- A file that exports a class `C` with the method `m`, and keeps a class `D` with a method `m` to
itself. -/
def classes (path : String) : FileFacts where
  path
  language := "typescript"
  hash := ""
  package := "app"
  lineCount := 1
  declarations :=
    [.classType ⟨"C", false, true, none, [], ["m"], [], none, 1, 1, none⟩, method "C" "m",
     method "D" "m"]
  resolvedImports := []

theorem wellNamed_classes {path : String} (h : Path.EndsAsSource path) : (classes path).WellNamed where
  path := h
  classes := by
    change ∀ d ∈ (classes "").declarations, ∀ c, d.className? = some c → IsClassName c
    decide

/-- The symbol of the method of the exported class. -/
def exportedMethod (path : String) : Symbol :=
  let scope := Scope.ofFacts (classes path)
  ⟨.function, "m", scope.methodId "C" "m", false, some (scope.classId "C")⟩

theorem exportedMethod_mem (path : String) :
    exportedMethod path ∈ (FileSymbols.ofFacts (classes path)).symbols :=
  List.mem_filterMap.mpr ⟨method "C" "m", by simp [classes], rfl⟩

/-- The method of the exported class has one id in two files, and shares it as the method of that
class. -/
theorem alike_classes :
    Key.Apart ((classes "a.ts").keys ++ (classes "d/b.TSX").keys) ∧
    (exportedMethod "a.ts").id = (exportedMethod "d/b.TSX").id ∧
    (classes "a.ts").Share (classes "d/b.TSX") (exportedMethod "a.ts") (exportedMethod "d/b.TSX") := by
  have ha : (classes "a.ts").WellNamed := wellNamed_classes ⟨['a'], ['t', 's'], by decide⟩
  have hb : (classes "d/b.TSX").WellNamed :=
    wellNamed_classes ⟨['d', '/', 'b'], ['T', 'S', 'X'], by decide⟩
  have happart : Key.Apart ((classes "a.ts").keys ++ (classes "d/b.TSX").keys) := by decide +kernel
  have hid : (exportedMethod "a.ts").id = (exportedMethod "d/b.TSX").id := by decide +kernel
  obtain ⟨_, _, _, hshare⟩ := FileSymbols.alike_of_id ha hb happart (exportedMethod_mem _)
    (exportedMethod_mem _) hid
  exact ⟨happart, hid, hshare⟩

end Trial

end CodeAtlas
