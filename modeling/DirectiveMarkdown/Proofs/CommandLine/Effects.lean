import DirectiveMarkdown.CommandLine.Run
import Mathlib.Logic.Function.Basic

/-! What a command to render changes: on success what it was asked to write, and nothing on failure.
The actions of the machine are taken by their laws, of which the main one is that asking and
reporting change nothing that is seen from outside. -/
namespace DirectiveMarkdown

/-- What is seen of a machine from outside: what is in each place, the place that a path leads to,
and what was printed to the standard output. -/
structure Scene (Place Content : Type) where
  files : Place → Content
  place? : Path → Option Place
  output : Text

/-- How the states of a machine are seen, with the laws of its actions. Only writing and printing
change what is seen, and only where they succeed. -/
structure Outlook (σ Place Content : Type) [MonadMachine (StateM σ)] [DecidableEq Place] where
  scene : σ → Scene Place Content
  /-- What is in the place of a file with a text. -/
  ofText : Text → Content
  workingDirectory (state : σ) :
    scene ((MonadMachine.workingDirectory : StateM σ _) state).2 = scene state
  pathExists (path : Path) (state : σ) :
    scene ((MonadMachine.pathExists path : StateM σ _) state).2 = scene state
  readFile (path : Path) (state : σ) :
    scene ((MonadMachine.readFile path : StateM σ _) state).2 = scene state
  readInput (state : σ) : scene ((MonadMachine.readInput : StateM σ _) state).2 = scene state
  report (message : Text) (state : σ) :
    scene ((MonadMachine.report message : StateM σ _) state).2 = scene state
  writeFile_error {path : Path} {content : Text} {state after : σ} {error : FileError} :
    (MonadMachine.writeFile path content : StateM σ _) state = (.error error, after) →
      scene after = scene state
  writeFile_ok {path : Path} {content : Text} {state after : σ} :
    (MonadMachine.writeFile path content : StateM σ _) state = (.ok (), after) →
      ∃ place, (scene state).place? path = some place ∧
        scene after = { scene state with
          files := Function.update (scene state).files place (ofText content) }
  print_error {s : Text} {state after : σ} {error : FileError} :
    (MonadMachine.print s : StateM σ _) state = (.error error, after) → scene after = scene state
  print_ok {s : Text} {state after : σ} :
    (MonadMachine.print s : StateM σ _) state = (.ok (), after) →
      scene after = { scene state with output := (scene state).output ++ s }

/-! ### The machine as a value -/

namespace FileSystem

variable {files after : FileSystem} {start location : Location} {path : Path} {content : Text}

/-- A successful write puts the content in the place that the path leads to, which is no directory.
-/
theorem write_eq_ok (h : files.write start path content = .ok after) :
    ∃ location, files.locate start path = .ok location ∧
      files.at? location ≠ some .directory ∧ after = files.put location (.file content) := by
  unfold write at h
  split at h
  · cases h
  · split at h
    · cases h
    · next location hLocate =>
        split at h
        · cases h
        · next hFile =>
            obtain ⟨hNotDirectory, hBare⟩ := not_or.1 hFile
            rw [Classical.not_not.1 hBare] at hLocate
            exact ⟨location, hLocate, hNotDirectory, (Except.ok.inj h).symm⟩

theorem ne_nil_of_not_directory (h : files.at? location ≠ some .directory) : location ≠ [] := by
  rintro rfl
  exact h rfl

/-- A file that is written does not change where paths lead to, as it is in no place of a
directory. -/
theorem walk_put (h : files.at? location ≠ some .directory) (here : Location) (pieces : List Text) :
    ((files.put location (.file content)).walk here pieces).toOption =
      (files.walk here pieces).toOption := by
  induction pieces generalizing here with
  | nil => rfl
  | cons piece rest ih =>
      rw [walk, walk, at?_put _ _ _ (ne_nil_of_not_directory h)]
      by_cases hHere : here = location
      · subst hHere
        rw [if_pos rfl]
        rcases hAt : files.at? here with _ | _ | content
        · rfl
        · exact absurd hAt h
        · rfl
      · rw [if_neg hHere]
        rcases files.at? here with _ | _ | content
        · rfl
        · dsimp only
          split
          · exact ih here
          · split
            · exact ih _
            · split
              · rfl
              · exact ih _
        · rfl

/-- Putting a file where no directory stands moves no path to another place. -/
theorem locate_put (h : files.at? location ≠ some .directory) :
    ((files.put location (.file content)).locate start path).toOption =
      (files.locate start path).toOption := by
  unfold locate
  split
  · rfl
  · split
    · rfl
    · split <;> exact walk_put h _ _

end FileSystem

namespace Machine

/-- What is seen of a machine: the places are the locations, and paths lead where the working
directory has them lead. -/
def scene (machine : Machine) : Scene Location (Option Entry) where
  files := machine.files.at?
  place? path := (machine.files.locate machine.workingDirectory path).toOption
  output := machine.output

/-- A write that fails changes nothing that is seen. -/
theorem scene_of_writeFile_error {machine after : Machine} {path : Path} {content : Text}
    {error : FileError} (h : machine.writeFile path content = (.error error, after)) :
    after.scene = machine.scene := by
  unfold writeFile at h
  split at h
  · cases h
  · cases h
    rfl

/-- A write that succeeds changes what is in one place, the one that its path leads to. -/
theorem scene_of_writeFile_ok {machine after : Machine} {path : Path} {content : Text}
    (h : machine.writeFile path content = (.ok (), after)) :
    ∃ place, machine.scene.place? path = some place ∧
      after.scene = { machine.scene with
        files := Function.update machine.scene.files place (some (.file content)) } := by
  unfold writeFile at h
  split at h
  · next files hWrite =>
      cases h
      obtain ⟨location, hLocate, hFile, rfl⟩ := FileSystem.write_eq_ok hWrite
      refine ⟨location, congrArg Except.toOption hLocate, ?_⟩
      unfold scene
      congr
      · funext other
        rw [FileSystem.at?_put _ _ _ (FileSystem.ne_nil_of_not_directory hFile),
          Function.update_apply]
      · funext other
        exact FileSystem.locate_put hFile
  · cases h

theorem scene_of_print_error {machine after : Machine} {s : Text} {error : FileError}
    (h : machine.print s = (.error error, after)) : after.scene = machine.scene := by
  unfold print at h
  split at h <;> cases h
  rfl

/-- A text that is printed comes after all that was printed before. -/
theorem scene_of_print_ok {machine after : Machine} {s : Text}
    (h : machine.print s = (.ok (), after)) :
    after.scene = { machine.scene with output := machine.scene.output ++ s } := by
  unfold print at h
  split at h <;> cases h
  rfl

def outlook : Outlook Machine Location (Option Entry) where
  scene := scene
  ofText content := some (.file content)
  workingDirectory _ := rfl
  pathExists _ _ := rfl
  readFile _ _ := rfl
  readInput _ := rfl
  report _ _ := rfl
  writeFile_error := scene_of_writeFile_error
  writeFile_ok := scene_of_writeFile_ok
  print_error := scene_of_print_error
  print_ok := scene_of_print_ok

end Machine

/-! ### Actions that change nothing -/

namespace Outlook

variable {σ Place Content α β : Type} [MonadMachine (StateM σ)] [DecidableEq Place]
variable (outlook : Outlook σ Place Content)

/-- The action changes nothing that is seen. -/
def Silent (action : StateM σ α) : Prop :=
  ∀ state, outlook.scene (action state).2 = outlook.scene state

variable {outlook}

theorem Silent.pure (a : α) : outlook.Silent (Pure.pure a : StateM σ α) := fun _ => rfl

/-- Silent actions one after the other are silent. -/
theorem Silent.bind {action : StateM σ α} {next : α → StateM σ β} (hAction : outlook.Silent action)
    (hNext : ∀ a, outlook.Silent (next a)) : outlook.Silent (action >>= next) :=
  fun state => (hNext _ _).trans (hAction state)

theorem Silent.findM? {test : α → StateM σ Bool} (h : ∀ a, outlook.Silent (test a)) (l : List α) :
    outlook.Silent (l.findM? test) := by
  induction l with
  | nil => exact .pure none
  | cons a rest ih =>
      rw [List.findM?]
      refine (h a).bind fun found => ?_
      cases found with
      | true => exact .pure (some a)
      | false => exact ih

/-- To look for a configuration and to read it changes nothing. -/
theorem silent_load (given : Option Path) (overrides : Overrides) :
    outlook.Silent (Config.load given overrides : StateM σ _) := by
  have hRead : ∀ path, outlook.Silent (Config.readFile path : StateM σ _) := by
    intro path
    refine Silent.bind (outlook.readFile path) fun content => ?_
    cases content <;> exact .pure _
  have hDiscover : outlook.Silent (Config.discover? : StateM σ _) := by
    refine Silent.bind outlook.workingDirectory fun directory => ?_
    cases directory with
    | none => exact .pure none
    | some directory => exact .findM? outlook.pathExists _
  cases given with
  | some path =>
      refine Silent.bind (outlook.pathExists path) fun found => ?_
      cases found with
      | true => exact (hRead path).bind fun _ => .pure _
      | false => exact (Silent.pure _).bind fun _ => .pure _
  | none =>
      refine hDiscover.bind fun found => ?_
      cases found with
      | some path => exact (hRead path).bind fun _ => .pure _
      | none => exact (Silent.pure _).bind fun _ => .pure _

/-- Reading the input leaves no trace. -/
theorem silent_readInput (input : Path) :
    outlook.Silent (CommandLine.readInput input : StateM σ _) := by
  unfold CommandLine.readInput
  split
  · exact outlook.readInput
  · exact outlook.readFile input

end Outlook

/-! ### A command to render -/

namespace CommandLine

theorem stateM_bind {σ α β : Type} (action : StateM σ α) (next : α → StateM σ β) (state : σ) :
    (action >>= next) state = next (action state).1 (action state).2 := rfl

theorem orFail_bind {σ ε α β : Type} (failure : ε → Failure) (action : StateM σ (Except ε α))
    (next : α → ExceptT Failure (StateM σ) β) (state : σ) :
    (orFail failure action >>= next).run state =
      match action state with
      | (.ok result, after) => (next result).run after
      | (.error error, after) => (.error (failure error), after) := by
  have hLift : (liftM action : ExceptT Failure (StateM σ) (Except ε α)).run state =
      (.ok (action state).1, (action state).2) := rfl
  rw [orFail, bind_assoc, ExceptT.run_bind, stateM_bind, hLift]
  rcases action state with ⟨error | result, after⟩ <;> rfl

theorem orFail_run {σ ε α : Type} (failure : ε → Failure) (action : StateM σ (Except ε α))
    (state : σ) :
    (orFail failure action).run state =
      match action state with
      | (.ok result, after) => (.ok result, after)
      | (.error error, after) => (.error (failure error), after) := by
  rw [← bind_pure (orFail failure action), orFail_bind]
  rfl

variable {σ Place Content : Type} [MonadMachine (StateM σ)] [DecidableEq Place]

/-- From a state on, the settings make a text of the input: the text of the stage that is asked for,
and a newline. `ready` is the state in which the text is there. -/
def Renders (input : Path) (settings : RenderSettings) (start : σ) (result : Text) (ready : σ) :
    Prop :=
  ∃ config loaded pipeline source stages,
    (Config.load settings.config settings.overrides : StateM σ _) start = (.ok config, loaded) ∧
    config.pipeline = .ok pipeline ∧
    (readInput input : StateM σ _) loaded = (.ok source, ready) ∧
    pipeline.stages source = .ok stages ∧
    result = (settings.stage.getD .html).format stages ++ ['\n']

def deliver (settings : RenderSettings) (result : Text) : StateM σ (Except FileError Unit) :=
  match settings.output with
  | some path => MonadMachine.writeFile path result
  | none => MonadMachine.print result

/-- All that changes is that the result is printed or, if the settings name a file, is the text of
that file. -/
def Delivered (outlook : Outlook σ Place Content) (settings : RenderSettings) (result : Text)
    (before after : Scene Place Content) : Prop :=
  match settings.output with
  | some path => ∃ place, before.place? path = some place ∧
      after = { before with files := Function.update before.files place (outlook.ofText result) }
  | none => after = { before with output := before.output ++ result }

/-- The state after the note on a written file. -/
def announced (settings : RenderSettings) (state : σ) : σ :=
  match settings.output with
  | some path =>
    ((MonadMachine.report (text "Wrote " ++ path.toText ++ ['\n']) : StateM σ Unit) state).2
  | none => state

variable {input : Path} {settings : RenderSettings} {start ready : σ} {result : Text}

/-- Once the result is there, only its delivery can fail. -/
theorem render_of_renders (h : Renders input settings start result ready) :
    (render input settings : ExceptT Failure (StateM σ) Unit).run start =
      match deliver settings result ready with
      | (.ok (), after) => (.ok (), announced settings after)
      | (.error error, after) => (.error (.file error), after) := by
  obtain ⟨config, loaded, pipeline, source, stages, hLoad, hPipeline, hSource, hStages, rfl⟩ := h
  rw [render, orFail_bind, hLoad]
  dsimp only
  rw [orFail_bind, hPipeline]
  dsimp only [pure, StateT.pure]
  rw [orFail_bind, hSource]
  dsimp only
  rw [orFail_bind, hStages]
  dsimp only [pure, StateT.pure]
  unfold deliver announced
  generalize (settings.stage.getD .html).format stages ++ ['\n'] = result
  cases settings.output with
  | none =>
      dsimp only
      rw [orFail_run]
      rcases (MonadMachine.print result : StateM σ _) ready with ⟨error | _, after⟩ <;> rfl
  | some path =>
      dsimp only
      rw [orFail_bind]
      rcases (MonadMachine.writeFile path result : StateM σ _) ready with ⟨error | _, after⟩ <;> rfl

/-- Without a result the command fails, and nothing that is seen has changed. -/
theorem render_of_not_renders (outlook : Outlook σ Place Content)
    (h : ¬ ∃ result ready, Renders input settings start result ready) :
    ∃ failure after, (render input settings : ExceptT Failure (StateM σ) Unit).run start =
      (.error failure, after) ∧ outlook.scene after = outlook.scene start := by
  have hLoaded := outlook.silent_load settings.config settings.overrides start
  rw [render, orFail_bind]
  rcases hLoad : (Config.load settings.config settings.overrides : StateM σ _) start with
    ⟨error | config, loaded⟩
  · exact ⟨.config error, loaded, rfl, by rwa [hLoad] at hLoaded⟩
  rw [hLoad] at hLoaded
  dsimp only
  rw [orFail_bind]
  dsimp only [pure, StateT.pure]
  rcases hPipeline : config.pipeline with error | pipeline
  · exact ⟨.pipeline error, loaded, rfl, hLoaded⟩
  dsimp only
  have hRead := outlook.silent_readInput input loaded
  rw [orFail_bind]
  rcases hSource : (readInput input : StateM σ _) loaded with ⟨error | source, ready⟩
  · exact ⟨.file error, ready, rfl, by rw [← hLoaded, ← hRead, hSource]⟩
  rw [hSource] at hRead
  dsimp only
  rw [orFail_bind]
  dsimp only [pure, StateT.pure]
  rcases hStages : pipeline.stages source with error | stages
  · exact ⟨.render error, ready, rfl, hRead.trans hLoaded⟩
  · exact absurd ⟨_, ready, config, loaded, pipeline, source, stages, hLoad, hPipeline, hSource,
      hStages, rfl⟩ h

/-- Making the result changes nothing that is seen. -/
theorem Renders.scene_eq (outlook : Outlook σ Place Content)
    (h : Renders input settings start result ready) :
    outlook.scene ready = outlook.scene start := by
  obtain ⟨config, loaded, pipeline, source, stages, hLoad, -, hSource, -, -⟩ := h
  have hLoaded := outlook.silent_load settings.config settings.overrides start
  have hRead := outlook.silent_readInput input loaded
  rw [hLoad] at hLoaded
  rw [hSource] at hRead
  exact hRead.trans hLoaded

/-- A delivery that succeeds prints the result or writes it into the file, and does nothing else. -/
theorem delivered_of_ok (outlook : Outlook σ Place Content) {after : σ}
    (h : deliver settings result ready = (.ok (), after)) :
    Delivered outlook settings result (outlook.scene ready) (outlook.scene after) := by
  unfold deliver at h
  unfold Delivered
  cases hOutput : settings.output with
  | some path => exact outlook.writeFile_ok (by simpa only [hOutput] using h)
  | none => exact outlook.print_ok (by simpa only [hOutput] using h)

/-- A delivery that fails changes nothing that is seen. -/
theorem scene_eq_of_deliver_error (outlook : Outlook σ Place Content) {after : σ}
    {error : FileError} (h : deliver settings result ready = (.error error, after)) :
    outlook.scene after = outlook.scene ready := by
  unfold deliver at h
  cases hOutput : settings.output with
  | some path => exact outlook.writeFile_error (by simpa only [hOutput] using h)
  | none => exact outlook.print_error (by simpa only [hOutput] using h)

theorem scene_announced (outlook : Outlook σ Place Content) (state : σ) :
    outlook.scene (announced settings state) = outlook.scene state := by
  unfold announced
  cases settings.output with
  | none => rfl
  | some path => exact outlook.report _ state

/-- A run of a command to render ends with 0, or reports the failure and ends with 1. -/
theorem run_of_render {words : List Text} (hCommand : Command.read? words = some (.render input settings))
    (start : σ) :
    (run words : StateM σ UInt32) start =
      match (render input settings : ExceptT Failure (StateM σ) Unit).run start with
      | (.ok (), after) => (0, after)
      | (.error failure, after) => (1, ((MonadMachine.report
          (text "Error: " ++ failure.message ++ ['\n']) : StateM σ Unit) after).2) := by
  rw [run, hCommand]
  dsimp only
  rw [stateM_bind, perform]
  rcases (render input settings : ExceptT Failure (StateM σ) Unit).run start with
    ⟨failure | _, after⟩ <;> rfl

/-- A run of a command to render ends with 0 or 1. It ends with 0 exactly if the result can be made
and delivered. Then this is all that changes, whether or not something was read from the file that is
written. If the run ends with 1, nothing that is seen changes. -/
theorem run_render_effect (outlook : Outlook σ Place Content) {words : List Text} {after : σ}
    {code : UInt32} (hCommand : Command.read? words = some (.render input settings))
    (hRun : (run words : StateM σ UInt32) start = (code, after)) :
    (code = 0 ∨ code = 1) ∧
    (code = 0 ↔ ∃ result ready delivered, Renders input settings start result ready ∧
      deliver settings result ready = (.ok (), delivered)) ∧
    (code = 0 → ∃ result ready, Renders input settings start result ready ∧
      Delivered outlook settings result (outlook.scene start) (outlook.scene after)) ∧
    (code = 1 → outlook.scene after = outlook.scene start) := by
  have hOne : (1 : UInt32) ≠ 0 := by decide
  rw [run_of_render hCommand] at hRun
  have hZero : (∃ result ready delivered, Renders input settings start result ready ∧
      deliver settings result ready = (.ok (), delivered)) → code = 0 := by
    rintro ⟨result, ready, delivered, hResult, hDeliver⟩
    rw [render_of_renders hResult, hDeliver] at hRun
    exact (Prod.mk.inj hRun).1.symm
  by_cases hRenders : ∃ result ready, Renders input settings start result ready
  · obtain ⟨result, ready, hResult⟩ := hRenders
    rw [render_of_renders hResult] at hRun
    rcases hDeliver : deliver settings result ready with ⟨error | _, delivered⟩
    · rw [hDeliver] at hRun
      obtain ⟨rfl, rfl⟩ := Prod.mk.inj hRun
      refine ⟨.inr rfl, ⟨fun h => absurd h hOne, hZero⟩, fun h => absurd h hOne, fun _ => ?_⟩
      rw [outlook.report, scene_eq_of_deliver_error outlook hDeliver, hResult.scene_eq outlook]
    · rw [hDeliver] at hRun
      obtain ⟨rfl, rfl⟩ := Prod.mk.inj hRun
      refine ⟨.inl rfl, ⟨fun _ => ⟨result, ready, delivered, hResult, hDeliver⟩, hZero⟩,
        fun _ => ⟨result, ready, hResult, ?_⟩, fun h => absurd h.symm hOne⟩
      rw [scene_announced, ← hResult.scene_eq outlook]
      exact delivered_of_ok outlook hDeliver
  · obtain ⟨failure, failed, hFails, hScene⟩ := render_of_not_renders outlook hRenders
    rw [hFails] at hRun
    obtain ⟨rfl, rfl⟩ := Prod.mk.inj hRun
    exact ⟨.inr rfl, ⟨fun h => absurd h hOne, hZero⟩, fun h => absurd h hOne,
      fun _ => (outlook.report _ _).trans hScene⟩

def pageMachine (content : Text) : Machine := { files := ⟨[([text "page.md"], .file content)]⟩ }

/-- The exit code of a run on such a machine, and what becomes of the page. -/
def runOnPage (words : List Text) (content : Text) : UInt32 × Option Entry :=
  let (code, after) := (run words : StateM Machine UInt32) (pageMachine content)
  (code, after.files.at? [text "page.md"])

/-- A page may be rendered into its own file. With strict videos a page with a video of no type fails
late, when a rule is applied, and it stays as it is. -/
theorem run_render_effect_page :
    (∃ settings result ready after,
      Command.read? [text "render", text "page.md", text "-o", text "page.md"] =
        some (.render [text "page.md"] settings) ∧
      (run [text "render", text "page.md", text "-o", text "page.md"] : StateM Machine UInt32)
        (pageMachine (text "Hi")) = (0, after) ∧
      after.files.at? [text "page.md"] = some (.file (text "<p>Hi</p>\n")) ∧
      Renders [text "page.md"] settings (pageMachine (text "Hi")) result ready ∧
      Delivered Machine.outlook settings result
        (Machine.outlook.scene (pageMachine (text "Hi"))) (Machine.outlook.scene after)) ∧
    ∃ settings after,
      Command.read? [text "render", text "--strict-video", text "page.md", text "-o",
        text "page.md"] = some (.render [text "page.md"] settings) ∧
      (run [text "render", text "--strict-video", text "page.md", text "-o", text "page.md"] :
        StateM Machine UInt32) (pageMachine (text "::video")) = (1, after) ∧
      Machine.outlook.scene after = Machine.outlook.scene (pageMachine (text "::video")) := by
  constructor
  · have hCommand : Command.read? [text "render", text "page.md", text "-o", text "page.md"] =
        some (.render [text "page.md"]
          { input := some [text "page.md"], output := some [text "page.md"] }) := rfl
    have hPage : runOnPage [text "render", text "page.md", text "-o", text "page.md"] (text "Hi") =
        (0, some (.file (text "<p>Hi</p>\n"))) := by decide +kernel
    rw [runOnPage] at hPage
    rcases hRun : (run [text "render", text "page.md", text "-o", text "page.md"] :
      StateM Machine UInt32) (pageMachine (text "Hi")) with ⟨code, after⟩
    rw [hRun] at hPage
    obtain ⟨rfl, hFile⟩ := Prod.mk.inj hPage
    obtain ⟨-, -, hDelivered, -⟩ := run_render_effect Machine.outlook hCommand hRun
    obtain ⟨result, ready, hResult, hChange⟩ := hDelivered rfl
    exact ⟨_, result, ready, after, hCommand, rfl, hFile, hResult, hChange⟩
  · have hCommand : Command.read? [text "render", text "--strict-video", text "page.md", text "-o",
          text "page.md"] =
        some (.render [text "page.md"]
          { input := some [text "page.md"], strictVideo := true,
            output := some [text "page.md"] }) := rfl
    have hPage : (runOnPage [text "render", text "--strict-video", text "page.md", text "-o",
        text "page.md"] (text "::video")).1 = 1 := by decide +kernel
    rw [runOnPage] at hPage
    rcases hRun : (run [text "render", text "--strict-video", text "page.md", text "-o",
      text "page.md"] : StateM Machine UInt32) (pageMachine (text "::video")) with ⟨code, after⟩
    rw [hRun] at hPage
    obtain rfl : code = 1 := hPage
    obtain ⟨-, -, -, hUnchanged⟩ := run_render_effect Machine.outlook hCommand hRun
    exact ⟨_, after, hCommand, rfl, hUnchanged rfl⟩

end CommandLine

end DirectiveMarkdown
