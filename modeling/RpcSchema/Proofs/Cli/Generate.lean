import RpcSchema.Proofs.Cli.Delivery
import RpcSchema.Proofs.Codegen.ClientParts

set_option autoImplicit false

/-!
# What a run of the generators leaves behind

Reading a configuration and a definition changes no files. Each generator makes one file for the
path that its entry gives, and the files are written when all of them have been made. So a run that
succeeds leaves at the path of every entry what its generator has made, unless a later entry has a
path to the same place: then the last such entry is the one whose contents are there.

## Main definitions

* `RpcSchema.FileSystem.loadConfig`, `RpcSchema.FileSystem.loadDefinition` — what is read.
* `RpcSchema.GeneratorEntry.Makes` — an entry has made a file.

## Main results

* `RpcSchema.Session.run_loadConfig`, `RpcSchema.Session.run_loadDefinition` — reading changes
  nothing.
* `RpcSchema.Session.read_of_generate` — what the paths of entries lead to after a run.
-/

namespace RpcSchema

open Effect (bind_eq_ok_iff lift_eq_ok_iff adapt_eq_ok_iff pure_eq_ok_iff)
open Outcome (eq_ok_of_toOption)

/-! ## Reading -/

namespace FileSystem

/-- **The configuration that files hold** at a path, or at the usual place. -/
def loadConfig (files : FileSystem) (path : Option String) : Except ConfigError Config :=
  let path := path.getD Config.fileName
  if files.isThere path then
    match files.read path with
    | .ok text => Config.parse path text
    | .error error => .error (.file path error)
  else .ok {}

/-- **The definition that files hold** at a path. -/
def loadDefinition (files : FileSystem) (path : String) : Except LoadError Definition :=
  if files.isThere path then
    match files.read path with
    | .ok text => Definition.ofFileText path text
    | .error error => .error (.file path error)
  else .error (.notFound path)

end FileSystem

namespace Session

variable {session session' : Session}

theorem files_of_say {ε : Type} {line : String}
    (h : (liftM (host.say line) : ExceptT ε (StateM Session) Unit).run session =
      (.ok (), session')) : session'.files = session.files := by
  cases lift_eq_ok_iff.mp h
  rfl

/-- **Reading a configuration** changes nothing. -/
theorem run_loadConfig (path : Option String) (session : Session) :
    (host.loadConfig path).run session = (session.files.loadConfig path, session) := by
  unfold Host.loadConfig FileSystem.loadConfig
  rw [Effect.run_bind]
  change (if session.files.isThere (path.getD Config.fileName) = true then _ else _ :
    ExceptT ConfigError (StateM Session) Config).run session = _
  dsimp only
  split
  · rw [Effect.run_bind]
    change (match session.files.read (path.getD Config.fileName) with
      | .ok text => _
      | .error error => _ : ExceptT ConfigError (StateM Session) Config).run session = _
    split <;> rfl
  · rfl

/-- **Reading a definition** changes nothing. -/
theorem run_loadDefinition (path : String) (session : Session) :
    (host.loadDefinition path).run session = (session.files.loadDefinition path, session) := by
  unfold Host.loadDefinition FileSystem.loadDefinition
  rw [Effect.run_bind]
  change (if session.files.isThere path = true then _ else _ :
    ExceptT LoadError (StateM Session) Definition).run session = _
  split
  · rw [Effect.run_bind]
    change (match session.files.read path with
      | .ok text => _
      | .error error => _ : ExceptT LoadError (StateM Session) Definition).run session = _
    split <;> rfl
  · rfl

end Session

/-! ## Generators -/

/-- **A generator makes one file**, for the path that its entry gives. -/
theorem GeneratorEntry.exists_of_render {entry : GeneratorEntry} {directory : String}
    {definition : Definition} {files : List GeneratedFile}
    (h : entry.render directory definition = .ok files) :
    ∃ file, files = [file] ∧ file.path = (entry.options directory).outputFile := by
  unfold GeneratorEntry.render at h
  cases hkind : entry.kind with
  | typescript =>
    rw [hkind] at h
    obtain ⟨-, -, h⟩ := Outcome.bind_eq_ok_iff.mp h
    obtain ⟨client, -, -, -, rfl⟩ := TypeScript.render_eq_ok_iff.mp h
    exact ⟨_, rfl, rfl⟩

/-- **An entry has made a file** for its path. -/
def GeneratorEntry.Makes (entry : GeneratorEntry) (directory : String) (definition : Definition)
    (file : GeneratedFile) : Prop :=
  entry.render directory definition = .ok [file] ∧
    file.path = (entry.options directory).outputFile

/-- Entries that have not failed have made one file each. -/
theorem forall₂_makes {directory : String} {definition : Definition}
    {entries : List GeneratorEntry} {files : List (List GeneratedFile)}
    (h : List.Forall₂ (fun entry files => entry.render directory definition = .ok files) entries
      files) :
    List.Forall₂ (GeneratorEntry.Makes · directory definition ·) entries files.flatten := by
  induction h with
  | nil => exact .nil
  | cons hrender _ ih =>
    obtain ⟨file, rfl, hpath⟩ := GeneratorEntry.exists_of_render hrender
    exact .cons ⟨hrender, hpath⟩ ih

namespace Session

variable {session session' : Session}

/-- **What a run of the generators leaves behind** when it succeeds. The configuration and the
definition have been read from the files as they were, every entry has made one file, and at the
path of an entry stands what the last of the later entries has made whose path leads to the same
place, and without any what the entry has made itself.

**Proof sketch.** Reading changes nothing, and no generator has failed, so that the files of all of
them have been delivered one after the other. What has been delivered last at a place is there. -/
theorem read_of_generate {definition output config : Option String}
    (h : (host.generate definition output config false).run session = (.ok (), session')) :
    ∃ base, session.files.loadConfig config = .ok base ∧
      let effective := base.override definition output
      (effective.generators = [] ∧ session'.files = session.files ∨
        ∃ (app : Definition) (outputs : List GeneratedFile),
          session.files.loadDefinition effective.definition = .ok app ∧
          List.Forall₂ (GeneratorEntry.Makes · effective.outputDirectory app ·)
            effective.generators outputs ∧
          ∀ before file after, outputs = before ++ file :: after → ∃ place,
            session'.files.resolve file.path = .ok place ∧
            session'.files.read file.path =
              .ok ((session'.files.lastAt after place).getD file).contents) := by
  unfold Host.generate at h
  obtain ⟨base, _, hbase, h⟩ := bind_eq_ok_iff.mp h
  rw [adapt_eq_ok_iff, run_loadConfig, Prod.mk.injEq] at hbase
  obtain ⟨hbase, rfl⟩ := hbase
  refine ⟨base, hbase, ?_⟩
  dsimp only at h ⊢
  split at h
  · rename_i hnone
    exact .inl ⟨List.isEmpty_iff.mp hnone, files_of_say h⟩
  · obtain ⟨⟨⟩, loading, hsay, h⟩ := bind_eq_ok_iff.mp h
    obtain ⟨app, _, happ, h⟩ := bind_eq_ok_iff.mp h
    rw [adapt_eq_ok_iff, run_loadDefinition, Prod.mk.injEq, files_of_say hsay] at happ
    obtain ⟨happ, rfl⟩ := happ
    obtain ⟨⟨⟩, found, hfound, h⟩ := bind_eq_ok_iff.mp h
    obtain ⟨⟨⟩, running, hrunning, h⟩ := bind_eq_ok_iff.mp h
    obtain ⟨failed, last, hdeliver, h⟩ := bind_eq_ok_iff.mp h
    split at h
    · cases h
    rename_i hfailed
    obtain ⟨-, rfl⟩ := pure_eq_ok_iff.mp h
    obtain rfl : failed = 0 := by omega
    obtain ⟨outputs, hresults, hdelivered⟩ := delivered_of_deliverAll hdeliver
    have hmade := forall₂_makes (List.forall₂_map_left_iff.mp hresults)
    refine .inr ⟨app, outputs.flatten, happ, hmade, fun before file after heq => ?_⟩
    exact (heq ▸ hdelivered).read

/-- A session in a directory with a definition of one procedure and a configuration of two
generators, for the given files. -/
def sample (first second : String) : Session where
  files :=
    { nodes :=
        [(["work"], .directory),
          (["work", "tyrpc.toml"], .file
            ("[[generators]]\nclient_name = \"A\"\noutput_file = \"" ++ first ++ "\"\n\n" ++
              "[[generators]]\nclient_name = \"B\"\noutput_file = \"" ++ second ++ "\"\n")),
          (["work", "app_definition.json"], .file
            ("\x7b\"arriSchemaVersion\": \"0.0.8\", " ++
              "\"errors\": \x7b\"properties\": \x7b\x7d\x7d, " ++
              "\"procedures\": \x7b\"ping\": \x7b\"path\": \"/ping\", \"method\": \"get\", " ++
              "\"transport\": \"http\"\x7d\x7d\x7d"))]
      workingDirectory := ["work"] }

/-- The case of two places, one of them in a directory that is not there before. -/
theorem read_of_generate_two_places :
    ∃ (session' : Session) (app : Definition) (first second : GeneratedFile),
      (host.generate none none none false).run (sample "a.ts" "gen/b.ts") =
        (.ok (), session') ∧
      GeneratorEntry.Makes { clientName := "A", outputFile := "a.ts" } "." app first ∧
      GeneratorEntry.Makes { clientName := "B", outputFile := "gen/b.ts" } "." app second ∧
      session'.files.read "./a.ts" = .ok first.contents ∧
      session'.files.read "./gen/b.ts" = .ok second.contents := by
  have hconfig : (sample "a.ts" "gen/b.ts").files.loadConfig none = .ok { generators :=
      [{ clientName := "A", outputFile := "a.ts" },
        { clientName := "B", outputFile := "gen/b.ts" }] } :=
    eq_ok_of_toOption (by decide +kernel)
  obtain ⟨outcome, houtcome⟩ : ∃ outcome : Except CommandError Unit × Session,
      (host.generate none none none false).run (sample "a.ts" "gen/b.ts") = outcome := ⟨_, rfl⟩
  have hfacts : outcome.1.toOption = some () ∧
      (outcome.2.files.resolve "./a.ts").toOption = some ["work", "a.ts"] ∧
      (outcome.2.files.resolve "./gen/b.ts").toOption = some ["work", "gen", "b.ts"] := by
    rw [← houtcome]
    decide +kernel
  obtain ⟨hok, hplace, hplace'⟩ := hfacts
  have hrun := houtcome.trans (Effect.eq_of_toOption hok)
  obtain ⟨base, hbase, hrest⟩ := read_of_generate hrun
  obtain rfl := Except.ok.inj (hconfig.symm.trans hbase)
  obtain ⟨hnone, -⟩ | ⟨app, outputs, -, hmakes, hread⟩ := hrest
  · cases hnone
  obtain ⟨first, _, hfirst, hothers, rfl⟩ := List.forall₂_cons_left_iff.mp hmakes
  obtain ⟨second, _, hsecond, hnone, rfl⟩ := List.forall₂_cons_left_iff.mp hothers
  obtain rfl := List.forall₂_nil_left_iff.mp hnone
  have hpath : first.path = "./a.ts" := hfirst.2.trans (by decide +kernel)
  have hpath' : second.path = "./gen/b.ts" := hsecond.2.trans (by decide +kernel)
  obtain ⟨place, hresolve, hcontents⟩ := hread [] first [second] rfl
  obtain ⟨_, -, hcontents'⟩ := hread [first] second [] rfl
  have hlast : outcome.2.files.lastAt [second] place = none := by
    rw [hpath, eq_ok_of_toOption hplace] at hresolve
    cases hresolve
    rw [FileSystem.lastAt, List.reverse_singleton, List.find?_singleton, hpath', hplace']
    exact if_neg (by decide)
  rw [hlast, hpath] at hcontents
  rw [hpath'] at hcontents'
  exact ⟨outcome.2, app, first, second, hrun, hfirst, hsecond, hcontents, hcontents'⟩

/-- Where two entries give one place in different words, the file of the first is lost. -/
theorem not_kept_at_shared_place :
    ∃ (session' : Session) (app : Definition) (file : GeneratedFile),
      (host.generate none none none false).run (sample "c.ts" "./c.ts") = (.ok (), session') ∧
      (sample "c.ts" "./c.ts").files.loadConfig none = .ok { generators :=
        [{ clientName := "A", outputFile := "c.ts" },
          { clientName := "B", outputFile := "./c.ts" }] } ∧
      (sample "c.ts" "./c.ts").files.loadDefinition "app_definition.json" = .ok app ∧
      GeneratorEntry.Makes { clientName := "A", outputFile := "c.ts" } "." app file ∧
      session'.files.read file.path ≠ .ok file.contents := by
  obtain ⟨outcome, houtcome⟩ : ∃ outcome : Except CommandError Unit × Session,
      (host.generate none none none false).run (sample "c.ts" "./c.ts") = outcome := ⟨_, rfl⟩
  have hfacts : outcome.1.toOption = some () ∧
      (((sample "c.ts" "./c.ts").files.loadDefinition "app_definition.json").toOption.any fun app =>
        (GeneratorEntry.render { clientName := "A", outputFile := "c.ts" } "."
          app).toOption.any fun files => files.any fun file =>
            (outcome.2.files.read file.path).toOption ≠ some file.contents) = true := by
    rw [← houtcome]
    decide +kernel
  obtain ⟨hok, hdifferent⟩ := hfacts
  obtain ⟨app, happ, hdifferent⟩ := (Option.any_eq_true _ _).mp hdifferent
  obtain ⟨files, hrender, hdifferent⟩ := (Option.any_eq_true _ _).mp hdifferent
  have hrender := eq_ok_of_toOption hrender
  obtain ⟨file, rfl, hpath⟩ := GeneratorEntry.exists_of_render hrender
  refine ⟨outcome.2, app, file, houtcome.trans (Effect.eq_of_toOption hok),
    eq_ok_of_toOption (by decide +kernel), eq_ok_of_toOption happ, ⟨hrender, hpath⟩,
    fun hread => ?_⟩
  simp [hread, Except.toOption] at hdifferent

end Session

end RpcSchema
