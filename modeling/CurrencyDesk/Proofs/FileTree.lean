import CurrencyDesk.FileTree
/-!
# Trees that keep what stands

A tree is kept by a later one when all that stands in it stands there too, unchanged. Making
directories keeps a tree, for it adds new directories and nothing else. Writing a file does
not: one that is there is written over.

A name put behind a path is one more part of it (`pathParts_joinPath`). Directories can be
made down to a path unless a file stands above or at it (`exists_makeDirectories?`), and the
last one is where a file can be written.

Key definitions: `pathNames`, `FileTree.Keeps`, `FileTree.Furnishes`.
Key theorems: `pathParts_joinPath`, `Furnishes.of_makeDirectories?`, `exists_makeDirectories?`,
`directory_of_makeDirectories?`, `eq_put_of_write?`.
-/

namespace CurrencyDesk

/-! ### The parts of a path -/

/-- The names between slashes, without those that do not count. -/
def pathNames (s : List Char) : List (List Char) :=
  (Text.splitWhen (· = '/') s).filter fun s => s ≠ [] && s ≠ ['.']

theorem pathParts_eq (path : String) :
    pathParts path = (if isAbsolutePath path then ["/"] else []) ++
      (pathNames path.toList).map String.ofList := rfl

theorem pathNames_append_slash (s t : List Char) :
    pathNames (s ++ '/' :: t) = pathNames s ++ pathNames t := by
  simp [pathNames, Text.splitWhen_append_cons]

theorem pathNames_name {name : List Char} (hslash : '/' ∉ name) (hempty : name ≠ [])
    (hpoint : name ≠ ['.']) : pathNames name = [name] := by
  have hsplit : Text.splitWhen (· = '/') name = [name] := by
    refine Text.splitWhen_eq_singleton fun c hc => ?_
    have hne : c ≠ '/' := fun heq => hslash (heq ▸ hc)
    simpa using hne
  simp [pathNames, hsplit, hempty, hpoint]

/-- A path that holds something begins at the root with more behind it, or without. -/
theorem isAbsolutePath_append {path : String} (h : path.toList ≠ []) (more : String) :
    isAbsolutePath (path ++ more) = isAbsolutePath path := by
  obtain ⟨c, s, hpath⟩ := List.exists_cons_of_ne_nil h
  simp [isAbsolutePath, hpath]

theorem pathParts_joinPath (path : String) {name : String} (hslash : '/' ∉ name.toList)
    (hempty : name.toList ≠ []) (hpoint : name.toList ≠ ['.']) :
    pathParts (joinPath path name) = pathParts path ++ [name] := by
  have hname : pathNames name.toList = [name.toList] := pathNames_name hslash hempty hpoint
  unfold joinPath
  by_cases hpath : path = ""
  · subst hpath
    have hrelative : isAbsolutePath name = false := by
      have hhead : name.toList.head? ≠ some '/' := fun h => hslash (List.mem_of_head? h)
      simpa [isAbsolutePath] using hhead
    have hnothing : pathParts "" = [] := rfl
    have hempty : "".isEmpty = true := rfl
    rw [if_pos hempty, hnothing, pathParts_eq, hname, hrelative]
    simp
  · have hnotEmpty : ¬ path.isEmpty = true := by simpa using hpath
    have hnotNil : path.toList ≠ [] := by simpa using hpath
    rw [if_neg hnotEmpty]
    by_cases hend : path.toList.getLast? = some '/'
    · -- the slash at the end has nothing behind it that counts
      obtain ⟨s, hs⟩ := List.getLast?_eq_some_iff.mp hend
      have hnames : pathNames path.toList = pathNames s := by
        rw [hs, pathNames_append_slash]
        exact List.append_nil _
      have hjoined : pathNames (path ++ name).toList = pathNames s ++ [name.toList] := by
        rw [String.toList_append, hs, List.append_assoc, List.singleton_append,
          pathNames_append_slash, hname]
      rw [if_pos hend, pathParts_eq, pathParts_eq, hjoined, hnames, isAbsolutePath_append hnotNil]
      simp
    · have hjoined : pathNames (path ++ "/" ++ name).toList =
          pathNames path.toList ++ [name.toList] := by
        have hseparator : "/".toList = ['/'] := rfl
        rw [String.toList_append, String.toList_append, hseparator, List.append_assoc,
          List.singleton_append, pathNames_append_slash, hname]
      rw [if_neg hend, pathParts_eq, pathParts_eq, hjoined, String.append_assoc,
        isAbsolutePath_append hnotNil]
      simp

namespace FileTree

variable {t t' t'' : FileTree} {parts other : List String} {path : String} {entry : FileEntry}
  {content : List UInt8}

/-- All that stands in a tree stands in another one, as it is. -/
def Keeps (t t' : FileTree) : Prop :=
  ∀ parts entry, t.at? parts = some entry → t'.at? parts = some entry

/-- Another tree differs from a tree in new directories only. -/
def Furnishes (t t' : FileTree) : Prop :=
  ∀ parts, t'.at? parts = t.at? parts ∨ t.at? parts = none ∧ t'.at? parts = some .directory

/-! ### What stands at a path -/

@[simp] theorem at?_put_self : (t.put parts entry).at? parts = some entry := by
  simp [put, at?]

theorem at?_put_of_ne (h : other ≠ parts) : (t.put parts entry).at? other = t.at? other := by
  have hkey : (other == parts) = false := by simpa using h
  simp [put, at?, List.lookup_cons, hkey]

theorem read?_eq_some_iff :
    t.read? path = some content ↔ t.at? (pathParts path) = some (.file content) := by
  unfold read?
  split <;> simp_all

theorem stands_eq_false_iff : t.stands path = false ↔ t.at? (pathParts path) = none := by
  simp [stands]

/-! ### Trees that keep others -/

theorem Keeps.refl (t : FileTree) : t.Keeps t :=
  fun _ _ h => h

theorem Keeps.trans (h : t.Keeps t') (h' : t'.Keeps t'') : t.Keeps t'' :=
  fun parts entry hentry => h' parts entry (h parts entry hentry)

theorem Keeps.read? (h : t.Keeps t') (hread : t.read? path = some content) :
    t'.read? path = some content :=
  read?_eq_some_iff.2 (h _ _ (read?_eq_some_iff.1 hread))

/-! ### Making directories -/

theorem Furnishes.refl (t : FileTree) : t.Furnishes t :=
  fun _ => .inl rfl

theorem Furnishes.trans (h : t.Furnishes t') (h' : t'.Furnishes t'') : t.Furnishes t'' := by
  intro parts
  rcases h' parts with hsame | ⟨hnone, hdirectory⟩
  · rw [hsame]
    exact h parts
  · rcases h parts with hsame | ⟨-, hmade⟩
    · exact .inr ⟨hsame ▸ hnone, hdirectory⟩
    · rw [hnone] at hmade
      cases hmade

/-- What it is to make a directory: no file stands in its place, and all else is as it was. -/
theorem makeDirectory?_eq_some (h : t.makeDirectory? parts = some t') :
    (t.at? parts = none ∨ t.at? parts = some .directory) ∧ t'.at? parts = some .directory ∧
      ∀ other, other ≠ parts → t'.at? other = t.at? other := by
  unfold makeDirectory? at h
  split at h
  · rename_i hdirectory
    cases h
    exact ⟨.inr hdirectory, hdirectory, fun _ _ => rfl⟩
  · cases h
  · rename_i hnone
    cases h
    exact ⟨.inl hnone, at?_put_self, fun _ => at?_put_of_ne⟩

theorem exists_makeDirectory? (h : ∀ content, t.at? parts ≠ some (.file content)) :
    ∃ t', t.makeDirectory? parts = some t' := by
  unfold makeDirectory?
  split
  · exact ⟨_, rfl⟩
  · rename_i content hfile
    exact absurd hfile (h content)
  · exact ⟨_, rfl⟩

theorem Furnishes.of_makeDirectory? (h : t.makeDirectory? parts = some t') : t.Furnishes t' := by
  obtain ⟨hbefore, hmade, hsame⟩ := makeDirectory?_eq_some h
  intro other
  by_cases hother : other = parts
  · subst hother
    rcases hbefore with hnone | hdirectory
    · exact .inr ⟨hnone, hmade⟩
    · exact .inl (hmade.trans hdirectory.symm)
  · exact .inl (hsame other hother)

theorem Furnishes.of_makeBelow? {names above : List String}
    (h : makeBelow? above t names = some t') : t.Furnishes t' := by
  induction names generalizing above t with
  | nil =>
    cases h
    exact .refl _
  | cons name names ih =>
    obtain ⟨made, hmade, hbelow⟩ := Option.bind_eq_some_iff.1 h
    exact (of_makeDirectory? hmade).trans (ih hbelow)

theorem Furnishes.of_makeDirectories? (h : t.makeDirectories? path = some t') : t.Furnishes t' :=
  of_makeBelow? h

theorem Furnishes.at?_ne_file (h : t.Furnishes t') (hfile : t.at? parts ≠ some (.file content)) :
    t'.at? parts ≠ some (.file content) := by
  rcases h parts with hsame | ⟨-, hdirectory⟩
  · rwa [hsame]
  · simp [hdirectory]

theorem exists_makeBelow? {names above : List String}
    (h : ∀ parts content, parts <+: above ++ names → t.at? parts ≠ some (.file content)) :
    ∃ t', makeBelow? above t names = some t' := by
  induction names generalizing above t with
  | nil => exact ⟨t, rfl⟩
  | cons name names ih =>
    have hsplit : above ++ name :: names = above ++ [name] ++ names := by simp
    rw [hsplit] at h
    obtain ⟨made, hmade⟩ := exists_makeDirectory? fun content =>
      h (above ++ [name]) content (List.prefix_append _ _)
    have hfurnishes := Furnishes.of_makeDirectory? hmade
    obtain ⟨t', ht'⟩ := ih fun parts content hprefix =>
      hfurnishes.at?_ne_file (h parts content hprefix)
    exact ⟨t', Option.bind_eq_some_iff.2 ⟨made, hmade, ht'⟩⟩

/-- Directories can be made down to a path unless a file stands above or at it. -/
theorem exists_makeDirectories?
    (h : ∀ parts content, parts <+: pathParts path → t.at? parts ≠ some (.file content)) :
    ∃ t', t.makeDirectories? path = some t' :=
  exists_makeBelow? h

theorem at?_of_makeBelow? {names above : List String} (h : makeBelow? above t names = some t')
    (hout : ¬ parts <+: above ++ names) : t'.at? parts = t.at? parts := by
  induction names generalizing above t with
  | nil =>
    cases h
    rfl
  | cons name names ih =>
    obtain ⟨made, hmade, hbelow⟩ := Option.bind_eq_some_iff.1 h
    obtain ⟨-, -, hsame⟩ := makeDirectory?_eq_some hmade
    have hsplit : above ++ name :: names = above ++ [name] ++ names := by simp
    rw [hsplit] at hout
    have hother : parts ≠ above ++ [name] := by
      rintro rfl
      exact hout (List.prefix_append _ _)
    rw [ih hbelow hout, hsame parts hother]

/-- Nothing changes but above and at the path. -/
theorem at?_of_makeDirectories? (h : t.makeDirectories? path = some t')
    (hout : ¬ parts <+: pathParts path) : t'.at? parts = t.at? parts :=
  at?_of_makeBelow? h hout

theorem directory_of_makeBelow? {names above : List String}
    (h : makeBelow? above t names = some t') (hne : names ≠ []) :
    t'.at? (above ++ names) = some .directory := by
  induction names generalizing above t with
  | nil => exact absurd rfl hne
  | cons name names ih =>
    obtain ⟨made, hmade, hbelow⟩ := Option.bind_eq_some_iff.1 h
    cases names with
    | nil =>
      cases hbelow
      exact (makeDirectory?_eq_some hmade).2.1
    | cons next names =>
      have hdirectory := ih hbelow (List.cons_ne_nil next names)
      simpa using hdirectory

theorem directory_of_makeDirectories? (h : t.makeDirectories? path = some t')
    (hne : pathParts path ≠ []) : t'.at? (pathParts path) = some .directory := by
  have hdirectory := directory_of_makeBelow? h hne
  simpa using hdirectory

/-! ### Writing a file -/

theorem exists_write? (content : List UInt8) (hnone : t.at? (pathParts path) = none)
    (hdirectory : t.at? (pathParts path).dropLast = some .directory) :
    ∃ t', t.write? path content = some t' := by
  simp [write?, hnone, hdirectory]

/-- A file that is written is put at its path, whatever stood there but a directory. -/
theorem eq_put_of_write? (h : t.write? path content = some t') :
    t' = t.put (pathParts path) (.file content) := by
  simp only [write?] at h
  split at h
  · cases h
  · cases h
    rfl
  · cases h

end FileTree

end CurrencyDesk
