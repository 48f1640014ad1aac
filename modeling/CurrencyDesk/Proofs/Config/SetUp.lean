import CurrencyDesk.Config.File
import CurrencyDesk.Proofs.FileTree
import CurrencyDesk.Proofs.Text.Utf8
/-!
# Setting up a configuration file

Setting up looks for something at the default path before anything is made. To make the
directories changes nothing that stands, and the file is written where nothing stood at the
beginning; so what was in the tree before is all kept (`setUp_eq_ok`, `SetUpDone.keeps`). It
succeeds where nothing stands, unless a file is in the way of a directory (`exists_setUp`).

The file that is written does not give the configuration that holds without one, for its
currencies are given: an empty local one, and US dollars. But a blank currency counts as none,
and none stands for US dollars, so the two are alike (`written_alike_default`).

Key definitions: `SetUpDone`, `Config.Alike`.
Key theorems: `setUp_of_stands`, `exists_setUp`, `setUp_eq_ok`, `SetUpDone.keeps`,
`written_alike_default`, `loadDefault_of_setUpDone`.
-/

namespace CurrencyDesk

variable {files made : FileTree} {v : HomeVariables} {path : String}

/-! ### The file that is made -/

/-- What has been done when a configuration file was set up: where nothing stood there is the
text with the defaults, and elsewhere there are new directories at most. -/
structure SetUpDone (files : FileTree) (v : HomeVariables) (path : String) (made : FileTree) :
    Prop where
  path_eq : v.configPath? = some path
  found_none : files.stands path = false
  written : made.read? path = some (Text.Utf8.encode Config.defaultText.toList)
  elsewhere : ∀ parts, parts ≠ pathParts path →
    made.at? parts = files.at? parts ∨
      files.at? parts = none ∧ made.at? parts = some .directory

/-- The default path is in the directory for the program, which has a name. -/
theorem HomeVariables.exists_programDirectory (h : v.configPath? = some path) :
    ∃ directory, v.programDirectory? = some directory ∧ pathParts directory ≠ [] ∧
      pathParts path = pathParts directory ++ ["config.yaml"] := by
  obtain ⟨directory, hdirectory, rfl⟩ := Option.map_eq_some_iff.1 h
  obtain ⟨above, -, hjoin⟩ := Option.map_eq_some_iff.1 hdirectory
  have hname : pathParts directory = pathParts above ++ ["quickfx"] := by
    rw [← hjoin]
    exact pathParts_joinPath above (by decide) (by decide) (by decide)
  refine ⟨directory, hdirectory, ?_, ?_⟩
  · simp [hname]
  · exact pathParts_joinPath directory (by decide) (by decide) (by decide)

theorem setUp_of_stands (hpath : v.configPath? = some path) (hstands : files.stands path = true) :
    setUp files v = .error (.configExists path) := by
  obtain ⟨directory, hdirectory, -⟩ := HomeVariables.exists_programDirectory hpath
  simp [setUp, hdirectory, hpath, hstands]

/-- Setting up succeeds where nothing stands, unless a file is in the way of a directory. -/
theorem exists_setUp (hpath : v.configPath? = some path) (hstands : files.stands path = false)
    (hfile : ∀ parts content, parts <+: pathParts path → files.at? parts ≠ some (.file content)) :
    ∃ made, setUp files v = .ok (path, made) := by
  obtain ⟨directory, hdirectory, hne, hparts⟩ := HomeVariables.exists_programDirectory hpath
  obtain ⟨furnished, hfurnished⟩ :
      ∃ furnished, files.makeDirectories? directory = some furnished := by
    refine FileTree.exists_makeDirectories? fun parts content hprefix => ?_
    exact hfile parts content (hparts ▸ hprefix.trans (List.prefix_append _ _))
  have hnone : furnished.at? (pathParts path) = none := by
    rw [FileTree.at?_of_makeDirectories? hfurnished, FileTree.stands_eq_false_iff.1 hstands]
    -- the path is longer than that of the directory
    intro hprefix
    have hlength := hprefix.length_le
    rw [hparts] at hlength
    simp at hlength
  have hparent : furnished.at? (pathParts path).dropLast = some .directory := by
    rw [hparts, List.dropLast_concat]
    exact FileTree.directory_of_makeDirectories? hfurnished hne
  obtain ⟨made, hmade⟩ :=
    FileTree.exists_write? (Text.Utf8.encode Config.defaultText.toList) hnone hparent
  exact ⟨made, by simp [setUp, hdirectory, hpath, hstands, hfurnished, hmade]⟩

theorem setUp_eq_ok (h : setUp files v = .ok (path, made)) : SetUpDone files v path made := by
  unfold setUp at h
  split at h
  · rename_i directory path' hdirectory hpath
    split at h
    · cases h
    · rename_i hstands
      split at h
      · cases h
      · rename_i furnished hfurnished
        split at h
        · cases h
        · rename_i hwrite
          cases h
          obtain rfl := FileTree.eq_put_of_write? hwrite
          have hfurnishes := FileTree.Furnishes.of_makeDirectories? hfurnished
          refine ⟨hpath, by simpa using hstands,
            FileTree.read?_eq_some_iff.2 FileTree.at?_put_self, fun parts hparts => ?_⟩
          rw [FileTree.at?_put_of_ne hparts]
          exact hfurnishes parts
  · cases h

theorem SetUpDone.keeps (h : SetUpDone files v path made) : files.Keeps made := by
  intro parts entry hentry
  have hnone : files.at? (pathParts path) = none := FileTree.stands_eq_false_iff.1 h.found_none
  have hparts : parts ≠ pathParts path := by
    rintro rfl
    rw [hnone] at hentry
    cases hentry
  rcases h.elsewhere parts hparts with hsame | ⟨habsent, -⟩
  · rw [hsame, hentry]
  · rw [habsent] at hentry
    cases hentry

/-- A file that is read after setting up, and was not there before, is the one that has been
written. -/
theorem SetUpDone.parts_of_new {other : String} {content : List UInt8}
    (h : SetUpDone files v path made) (hbefore : files.read? other = none)
    (hafter : made.read? other = some content) :
    pathParts other = pathParts path := by
  by_contra hother
  have hat := FileTree.read?_eq_some_iff.1 hafter
  rcases h.elsewhere _ hother with hsame | ⟨-, hdirectory⟩
  · rw [hsame] at hat
    rw [FileTree.read?_eq_some_iff.2 hat] at hbefore
    cases hbefore
  · rw [hdirectory] at hat
    cases hat

/-! ### What the file says -/

namespace Config

/-- Configurations that no conversion can tell apart: they have the same settings in every
region, and the same source, patience and validity. -/
structure Alike (c c' : Config) : Prop where
  settings : ∀ regional, c.settings regional = c'.settings regional
  baseUrl : c.provider.baseUrl = c'.provider.baseUrl
  timeout : c.provider.timeoutSeconds = c'.provider.timeoutSeconds
  validity : c.validity = c'.validity

theorem Alike.symm {c c' : Config} (h : c.Alike c') : c'.Alike c :=
  ⟨fun regional => (h.settings regional).symm, h.baseUrl.symm, h.timeout.symm, h.validity.symm⟩

/-- The configuration that the text with the defaults gives. -/
def written : Config where
  quick := ⟨.localToGlobal, some "", some "USD"⟩

set_option maxRecDepth 2000 in
theorem ofText?_defaultText : ofText? defaultText.toList = some written := by
  -- The characters are spelled out first, since the bytes of the literal are slow to decode.
  have hcharacters : defaultText = String.ofList _ := rfl
  rw [hcharacters, String.toList_ofList]
  decide +kernel

/-- A blank currency counts as none, and none stands for US dollars. -/
theorem written_alike_default : written.Alike {} where
  settings regional := by
    have hblank : Settings.nonBlank? (some "") = none := by decide
    have hdollars : Settings.nonBlank? (some "USD") = some globalCurrencyDefault := by decide
    have hnone : Settings.nonBlank? none = none := rfl
    simp [Config.settings, Settings.make, written, hblank, hdollars, hnone]
  baseUrl := rfl
  timeout := rfl
  validity := rfl

theorem loadDefault_of_not_stands (hpath : v.configPath? = some path)
    (hstands : files.stands path = false) : loadDefault files v = .ok {} := by
  simp [loadDefault, hpath, hstands]

/-- A file that is a text is read as the text. -/
theorem loadDefault_of_encode {text : List Char} {config : Config}
    (hpath : v.configPath? = some path) (hread : files.read? path = some (Text.Utf8.encode text))
    (htext : ofText? text = some config) : loadDefault files v = .ok config := by
  have hstands : files.stands path = true := by
    simp [FileTree.stands, FileTree.read?_eq_some_iff.1 hread]
  have hload : load files path = .ok config := by
    simp [load, hread, Text.Utf8.decode?_encode, htext]
  simp [loadDefault, hpath, hstands, hload]

/-- Wherever the file that has been set up is kept, it is read. -/
theorem loadDefault_of_setUpDone (h : SetUpDone files v path made) {later : FileTree}
    (hkeeps : made.Keeps later) : loadDefault later v = .ok written :=
  loadDefault_of_encode h.path_eq (hkeeps.read? h.written) ofText?_defaultText

end Config

end CurrencyDesk
