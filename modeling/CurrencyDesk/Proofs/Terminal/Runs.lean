import CurrencyDesk.Proofs.Config.SetUp
import CurrencyDesk.Terminal.Program
/-!
# Runs one after the other

Runs follow each other, each with an environment, an input, a network and arguments of its
own, and find the files that the runs before them have left. One run changes files only if it
is to set up and succeeds (`files_run`), and then it keeps all that stood there. So what once
stands at a path stands there after any runs (`keeps_filesAfter`), and a file that is new has
been made in one of them that set up (`exists_setUp_of_new`).

A conversion uses a configuration for its settings, its source and the validity of its rates.
So it does not matter to it whether there is a configuration file as setting up writes it, or
none (`run_of_alike`).

Key definitions: `Start`, `Start.SetsUp`, `Start.UsesDefault`, `filesAfter`.
Key theorems: `files_run`, `keeps_filesAfter`, `exists_setUp_of_new`, `run_of_alike`,
`config_file_written_once_without_effect`.
-/

namespace CurrencyDesk

/-! ### One run -/

namespace Surroundings

variable {w : Surroundings} {task : Task} {files' : FileTree} {c c' : Config}

@[simp] theorem finish_files (outcome : Outcome) : (finish outcome).files = outcome.files := by
  unfold finish
  split <;> rfl

theorem finish_with_files (outcome : Outcome) :
    finish { outcome with files := files' } = { finish outcome with files := files' } := by
  obtain ⟨result, console, asked, files⟩ := outcome
  cases result <;> rfl

theorem finish_code_eq_zero_iff {outcome : Outcome} :
    (finish outcome).code = 0 ↔ outcome.result = .ok () := by
  unfold finish
  split <;> simp_all

@[simp] theorem finishEarly_files (ending : Ending) : (w.finishEarly ending).files = w.files := by
  cases ending <;> rfl

@[simp] theorem convert_files (path : Option String) : (w.convert task path).files = w.files := by
  unfold convert convertWith
  split
  · rfl
  · split <;> rfl

theorem source_of_alike (h : c.Alike c') : { w with files := files' }.source c' = w.source c := by
  simp only [source, h.baseUrl, h.timeout]

theorem session_of_alike (h : c.Alike c') :
    { w with files := files' }.session c' = w.session c := by
  simp only [session, h.settings, h.validity]

/-- A conversion comes to the same with configurations that are alike, among any files. -/
theorem convertWith_of_alike (h : c.Alike c') :
    { w with files := files' }.convertWith task c' =
      { w.convertWith task c with files := files' } := by
  unfold convertWith
  rw [source_of_alike h, session_of_alike h]
  cases w.source c <;> rfl

/-- A conversion without a file that is named comes to the same among files where the
configuration is alike. -/
theorem convert_of_alike (hload : Config.loadDefault w.files w.home = .ok c)
    (hload' : Config.loadDefault files' w.home = .ok c') (halike : c.Alike c') :
    { w with files := files' }.convert task none =
      { w.convert task none with files := files' } := by
  simp only [convert, config, hload, hload']
  exact convertWith_of_alike halike

end Surroundings

/-- A start of the program: all that its run sees but files, and its arguments. -/
structure Start where
  locale : LocaleVariables := {}
  home : HomeVariables := {}
  input : List UInt8 := []
  colors : Bool := false
  network : (milliseconds : Nat) → Transport := fun _ => .unreachable
  arguments : List String := []

namespace Start

open Surroundings (finish)

variable {start : Start} {files files' : FileTree} {c c' : Config}

/-- What the run sees among files. -/
def surroundings (start : Start) (files : FileTree) : Surroundings where
  locale := start.locale
  home := start.home
  files := files
  input := start.input
  colors := start.colors
  network := start.network

/-- The run among files. -/
def run (start : Start) (files : FileTree) : Finish :=
  (start.surroundings files).run start.arguments

/-- The arguments say to set up. -/
def SetsUp (start : Start) : Prop :=
  ∃ path, Arguments.read start.arguments = .ok ⟨.setUp, path⟩

/-- The arguments neither say to set up nor name a configuration file. -/
def UsesDefault (start : Start) : Prop :=
  ∀ arguments, Arguments.read start.arguments = .ok arguments →
    arguments.command ≠ .setUp ∧ arguments.configPath = none

theorem run_of_setsUp (h : start.SetsUp) :
    start.run files = finish (start.surroundings files).setUp := by
  obtain ⟨path, hread⟩ := h
  simp [run, Surroundings.run, Surroundings.obey, hread]

theorem setUpDone_of_code (h : start.SetsUp) (hcode : (start.run files).code = 0) :
    ∃ path, SetUpDone files start.home path (start.run files).files := by
  rw [run_of_setsUp h, Surroundings.finish_code_eq_zero_iff] at hcode
  rw [run_of_setsUp h, Surroundings.finish_files]
  unfold Surroundings.setUp at hcode ⊢
  split at hcode
  · cases hcode
  · rename_i path made hmade
    exact ⟨path, setUp_eq_ok hmade⟩

theorem run_of_stands (h : start.SetsUp) {path : String}
    (hpath : start.home.configPath? = some path) (hstands : files.stands path = true) :
    start.run files =
      ⟨1, { err := "Error: " ++ (Failure.configExists path).message ++ "\n" }, [], files⟩ := by
  have hrefused : CurrencyDesk.setUp files start.home = .error (.configExists path) :=
    setUp_of_stands hpath hstands
  rw [run_of_setsUp h]
  simp only [Surroundings.setUp, surroundings, hrefused, finish, String.empty_append]

/-- A run that is to set up where nothing stands, and no file is in the way, succeeds. -/
theorem code_of_not_stands (h : start.SetsUp) {path : String}
    (hpath : start.home.configPath? = some path) (hstands : files.stands path = false)
    (hfile : ∀ parts content, parts <+: pathParts path → files.at? parts ≠ some (.file content)) :
    (start.run files).code = 0 := by
  obtain ⟨made, hmade⟩ := exists_setUp hpath hstands hfile
  rw [run_of_setsUp h, Surroundings.finish_code_eq_zero_iff]
  simp only [Surroundings.setUp, surroundings, hmade]

theorem files_run (start : Start) (files : FileTree) :
    (start.run files).files = files ∨ start.SetsUp ∧ (start.run files).code = 0 := by
  rcases hread : Arguments.read start.arguments with ending | ⟨command, path⟩
  · left
    simp [run, Surroundings.run, hread, surroundings]
  · have hobeyed : start.run files = finish ((start.surroundings files).obey ⟨command, path⟩) := by
      simp [run, Surroundings.run, hread]
    rw [hobeyed, Surroundings.finish_files, Surroundings.finish_code_eq_zero_iff]
    unfold Surroundings.obey
    cases command with
    | interactive => exact .inl (Surroundings.convert_files path)
    | query text raw => exact .inl (Surroundings.convert_files path)
    | setUp =>
      simp only [Surroundings.setUp]
      split
      · exact .inl rfl
      · exact .inr ⟨⟨path, hread⟩, rfl⟩

theorem keeps_run (start : Start) (files : FileTree) : files.Keeps (start.run files).files := by
  rcases start.files_run files with hsame | ⟨hsetsUp, hcode⟩
  · rw [hsame]
    exact .refl files
  · obtain ⟨path, hdone⟩ := setUpDone_of_code hsetsUp hcode
    exact hdone.keeps

/-- A file that is new after a run has been set up by it, where nothing stood. -/
theorem setsUp_of_new {path : String} {content : List UInt8} (hbefore : files.read? path = none)
    (hafter : (start.run files).files.read? path = some content) :
    start.SetsUp ∧ (start.run files).code = 0 ∧ files.stands path = false ∧
      content = Text.Utf8.encode Config.defaultText.toList := by
  rcases start.files_run files with hsame | ⟨hsetsUp, hcode⟩
  · rw [hsame, hbefore] at hafter
    cases hafter
  · obtain ⟨default, hdone⟩ := setUpDone_of_code hsetsUp hcode
    have hparts := hdone.parts_of_new hbefore hafter
    have hstands : files.stands path = false := by
      rw [FileTree.stands, hparts]
      exact hdone.found_none
    have hcontent : some content = some (Text.Utf8.encode Config.defaultText.toList) := by
      rw [← hafter, ← hdone.written, FileTree.read?, FileTree.read?, hparts]
    exact ⟨hsetsUp, hcode, hstands, Option.some.inj hcontent⟩

/-- A run with the configuration at the default path comes to the same among files where that
one is alike. -/
theorem run_of_alike (h : start.UsesDefault) (hload : Config.loadDefault files start.home = .ok c)
    (hload' : Config.loadDefault files' start.home = .ok c') (halike : c.Alike c') :
    start.run files' = { start.run files with files := files' } := by
  rcases hread : Arguments.read start.arguments with ending | ⟨command, path⟩
  · cases ending <;> simp [run, Surroundings.run, hread, surroundings, Surroundings.finishEarly]
  · obtain ⟨hcommand, rfl⟩ : command ≠ .setUp ∧ path = none := h _ hread
    have hfinish (task : Task) : finish ((start.surroundings files').convert task none) =
        { finish ((start.surroundings files).convert task none) with files := files' } := by
      rw [← Surroundings.finish_with_files]
      exact congrArg finish (Surroundings.convert_of_alike (w := start.surroundings files) hload
        hload' halike)
    simp only [run, Surroundings.run, hread, Surroundings.obey]
    cases command with
    | interactive => exact hfinish .lines
    | query text raw => exact hfinish (.query text raw)
    | setUp => exact absurd rfl hcommand

end Start

/-! ### Many runs -/

/-- The files after runs, one after the other. -/
def filesAfter (files : FileTree) : List Start → FileTree
  | [] => files
  | start :: starts => filesAfter (start.run files).files starts

variable {files : FileTree} {path : String} {content : List UInt8}

theorem keeps_filesAfter (files : FileTree) (starts : List Start) :
    files.Keeps (filesAfter files starts) := by
  induction starts generalizing files with
  | nil => exact .refl files
  | cons start starts ih => exact (start.keeps_run files).trans (ih _)

/-- A file that is new after runs has been set up by one of them, which found nothing there. -/
theorem exists_setUp_of_new {starts : List Start} (hbefore : files.read? path = none)
    (hafter : (filesAfter files starts).read? path = some content) :
    content = Text.Utf8.encode Config.defaultText.toList ∧
      ∃ before start after, starts = before ++ start :: after ∧ start.SetsUp ∧
        (filesAfter files before).stands path = false ∧
        (start.run (filesAfter files before)).code = 0 ∧
        (start.run (filesAfter files before)).files.read? path = some content := by
  induction starts generalizing files with
  | nil =>
    rw [filesAfter, hbefore] at hafter
    cases hafter
  | cons start starts ih =>
    rcases hread : (start.run files).files.read? path with _ | found
    · obtain ⟨hcontent, before, setter, after, rfl, hsetter⟩ := ih hread hafter
      exact ⟨hcontent, start :: before, setter, after, rfl, hsetter⟩
    · -- What this run leaves at the path stays there through the others.
      have hkept := (keeps_filesAfter (start.run files).files starts).read? hread
      obtain rfl : found = content := Option.some.inj (hkept.symm.trans hafter)
      obtain ⟨hsetsUp, hcode, hstands, hcontent⟩ := Start.setsUp_of_new hbefore hread
      exact ⟨hcontent, [], start, starts, rfl, hsetsUp, hstands, hcode, hread⟩

/-- **The configuration file is written once and changes no conversion.** Through any runs it
stays as it is once it is there; it comes into being in a run that sets up, and finds nothing
in its place; a run that is to set up fails where something stands, and leaves all as it was,
and it succeeds where nothing stands and no file is in the way. And when a run has set up, the
configuration that is loaded is alike to the one that was loaded without the file, so that each
later run that uses it ends as it would have before. -/
theorem config_file_written_once_without_effect {v : HomeVariables} {path : String}
    (hpath : v.configPath? = some path) (files : FileTree) :
    (∀ starts content, files.read? path = some content →
      (filesAfter files starts).read? path = some content) ∧
    (∀ starts content, files.read? path = none →
      (filesAfter files starts).read? path = some content →
        content = Text.Utf8.encode Config.defaultText.toList ∧
        ∃ before start after, starts = before ++ start :: after ∧ start.SetsUp ∧
          (filesAfter files before).stands path = false ∧
          (start.run (filesAfter files before)).code = 0 ∧
          (start.run (filesAfter files before)).files.read? path = some content) ∧
    (∀ start : Start, start.SetsUp → start.home = v → files.stands path = true →
      start.run files =
        ⟨1, { err := "Error: " ++ (Failure.configExists path).message ++ "\n" }, [], files⟩) ∧
    (∀ start : Start, start.SetsUp → start.home = v → files.stands path = false →
      (∀ parts content, parts <+: pathParts path → files.at? parts ≠ some (.file content)) →
      (start.run files).code = 0) ∧
    (∀ start : Start, start.SetsUp → start.home = v → (start.run files).code = 0 →
      Config.loadDefault files v = .ok {} ∧
      ∃ config : Config, config.Alike {} ∧ ∀ starts,
        Config.loadDefault (filesAfter (start.run files).files starts) v = .ok config ∧
        ∀ later : Start, later.home = v → later.UsesDefault →
          later.run (filesAfter (start.run files).files starts) =
            { later.run files with files := filesAfter (start.run files).files starts }) := by
  refine ⟨fun starts content hread => (keeps_filesAfter files starts).read? hread,
    fun starts content => exists_setUp_of_new, ?_, ?_, ?_⟩
  · rintro start hsetsUp rfl hstands
    exact Start.run_of_stands hsetsUp hpath hstands
  · rintro start hsetsUp rfl hstands hfile
    exact Start.code_of_not_stands hsetsUp hpath hstands hfile
  · rintro start hsetsUp rfl hcode
    obtain ⟨path', hdone⟩ := Start.setUpDone_of_code hsetsUp hcode
    have hbefore := Config.loadDefault_of_not_stands hdone.path_eq hdone.found_none
    refine ⟨hbefore, .written, Config.written_alike_default, fun starts => ?_⟩
    have hafter := Config.loadDefault_of_setUpDone hdone (keeps_filesAfter _ starts)
    refine ⟨hafter, fun later hhome hdefault => ?_⟩
    rw [← hhome] at hbefore hafter
    exact Start.run_of_alike hdefault hbefore hafter Config.written_alike_default.symm

/-- A home directory with nothing in it. -/
def emptyHome : FileTree :=
  ⟨[(["/", "root"], .directory), (["/"], .directory)]⟩

/-- A run that is to set up in that home directory. -/
def setUpAtRoot : Start where
  home := { home := some "/root" }
  arguments := ["setup"]

/-- A query of a bare amount from the same home directory. -/
def queryAtRoot : Start where
  home := { home := some "/root" }
  arguments := ["query", "5"]

/-- In an empty home directory a run sets up and the next one that would fails; a query ends as
it would have before. -/
theorem config_file_written_once_at_root :
    setUpAtRoot.home.configPath? = some "/root/.config/quickfx/config.yaml" ∧
    setUpAtRoot.SetsUp ∧ (setUpAtRoot.run emptyHome).code = 0 ∧
    (filesAfter emptyHome [setUpAtRoot]).stands "/root/.config/quickfx/config.yaml" = true ∧
    (setUpAtRoot.run (filesAfter emptyHome [setUpAtRoot])).code = 1 ∧
    queryAtRoot.UsesDefault ∧
    (queryAtRoot.run (filesAfter emptyHome [setUpAtRoot])).console =
      (queryAtRoot.run emptyHome).console := by
  have hpath : setUpAtRoot.home.configPath? = some "/root/.config/quickfx/config.yaml" := by
    decide +kernel
  have hsetsUp : setUpAtRoot.SetsUp := ⟨none, by decide +kernel⟩
  have hnone : emptyHome.stands "/root/.config/quickfx/config.yaml" = false := by decide +kernel
  have hfile (parts : List String) (content : List UInt8) :
      emptyHome.at? parts ≠ some (.file content) := by
    simp only [emptyHome, FileTree.at?, List.lookup_cons]
    split
    · simp
    · split <;> simp
  have hstands : (filesAfter emptyHome [setUpAtRoot]).stands "/root/.config/quickfx/config.yaml" =
      true := by decide +kernel
  have hread : Arguments.read queryAtRoot.arguments = .ok ⟨.query "5" false, none⟩ := by
    decide +kernel
  have hdefault : queryAtRoot.UsesDefault := by
    intro arguments harguments
    rw [hread] at harguments
    cases harguments
    simp
  obtain ⟨-, -, hrefused, -⟩ :=
    config_file_written_once_without_effect hpath (filesAfter emptyHome [setUpAtRoot])
  obtain ⟨-, -, -, hsucceeds, hset⟩ := config_file_written_once_without_effect hpath emptyHome
  have hcode : (setUpAtRoot.run emptyHome).code = 0 :=
    hsucceeds setUpAtRoot hsetsUp rfl hnone fun parts content _ => hfile parts content
  obtain ⟨-, config, -, halike⟩ := hset setUpAtRoot hsetsUp rfl hcode
  have hquery := (halike []).2 queryAtRoot rfl hdefault
  refine ⟨hpath, hsetsUp, hcode, hstands, ?_, hdefault, ?_⟩
  · rw [hrefused setUpAtRoot hsetsUp rfl hstands]
  · rw [filesAfter, hquery]

end CurrencyDesk
