import StepChart.Proofs.Basic
import StepChart.Proofs.Run.Ancestors
import StepChart.Run.Plan

/-!
# Which settings a run has

A settings file can be used if it can be read, is in its language and gives settings that pass the check. A file that was
asked for has to be usable. Otherwise the nearest usable file counts, at most ten directories up, and a file that cannot be
used is passed over; without one, there are the defaults. What the command line says comes last, and the check is made once
more. `settings_resolved` puts this together.
-/

namespace StepChart

open Text

/-! ## Settings that pass the check -/

namespace Settings

/-- The framework has a name that is not blank, and there is room for labels. -/
structure Valid (settings : Settings) : Prop where
  named : isBlankText settings.framework = false
  roomy : leastRoom ≤ settings.room

theorem fault?_eq_none_iff {settings : Settings} : settings.fault? = none ↔ settings.Valid := by
  unfold fault?
  split
  · next blank => exact ⟨fun none => (Option.some_ne_none _ none).elim, fun valid => by simp [valid.named] at blank⟩
  · next named =>
    split
    · next narrow =>
      exact ⟨fun none => (Option.some_ne_none _ none).elim, fun valid => absurd narrow (Nat.not_lt.2 valid.roomy)⟩
    · next roomy => exact ⟨fun _ => ⟨by simpa using named, Nat.not_lt.1 roomy⟩, fun _ => rfl⟩

theorem valid_default : ({} : Settings).Valid := ⟨by decide +kernel, by decide⟩

theorem checked_eq_ok_iff {ε : Type} {error : SettingsFault → ε} {settings result : Settings} :
    settings.checked error = .ok result ↔ settings = result ∧ result.Valid := by
  rw [← fault?_eq_none_iff]
  unfold checked
  split
  · next fault isFault =>
    constructor
    · rintro ⟨⟩
    · rintro ⟨rfl, accepted⟩
      rw [isFault] at accepted
      cases accepted
  · next accepted =>
    constructor
    · rintro ⟨⟩
      exact ⟨rfl, accepted⟩
    · rintro ⟨rfl, -⟩
      rfl

theorem ofText_eq_ok_iff {text : String} {settings : Settings} :
    ofText text = .ok settings ↔ parsed? text = some settings ∧ settings.Valid := by
  unfold ofText
  cases parsed? text with
  | none => simp
  | some found => rw [checked_eq_ok_iff, Option.some_inj]

end Settings

/-! ## Usable files -/

namespace Surroundings

variable {surroundings : Surroundings} {settings : Settings}

/-- A file can be read, is in its language, and gives settings that pass the check. -/
def Provides (surroundings : Surroundings) (path : String) (settings : Settings) : Prop :=
  ∃ text, surroundings.read path = some text ∧ Settings.parsed? text = some settings ∧ settings.Valid

theorem usableSettings?_eq_some_iff {path : String} :
    surroundings.usableSettings? path = some settings ↔ surroundings.Provides path settings := by
  unfold usableSettings? Provides
  rw [Option.bind_eq_some_iff]
  refine exists_congr fun text => and_congr_right fun _ => ?_
  rw [← Settings.ofText_eq_ok_iff]
  cases Settings.ofText text <;> simp [Except.toOption]

theorem settingsAt_eq_ok_iff {path : String} :
    surroundings.settingsAt path = .ok settings ↔ surroundings.Provides path settings := by
  unfold settingsAt Provides
  cases surroundings.read path with
  | none => simp
  | some text =>
    simp only [Option.some.injEq, exists_eq_left']
    rw [← Settings.ofText_eq_ok_iff]
    cases Settings.ofText text <;> simp [Except.mapError]

/-- The settings file a number of directories above the working directory can be used; only the nearest directories are
looked at. -/
def ProvidesAt (surroundings : Surroundings) (height : Nat) (settings : Settings) : Prop :=
  height < searchDepth ∧ ∃ working directory, surroundings.directory = some working ∧
    Path.above? height working = some directory ∧ surroundings.Provides (Path.join directory settingsFileName) settings

/-- Where the working directory is known by its names from the root, a settings file is looked for under the root and in
each directory on the way from it, as far as the search goes. -/
theorem providesAt_absolute {names : List String} (working : surroundings.directory = some (Path.absolute names))
    (areNames : ∀ name ∈ names, Path.IsName name) {height : Nat} :
    surroundings.ProvidesAt height settings ↔ height < searchDepth ∧ height ≤ names.length ∧
      surroundings.Provides (Path.absolute (names.take (names.length - height) ++ [settingsFileName])) settings := by
  have above := Path.above?_absolute areNames height
  have inFront : ∀ name ∈ names.take (names.length - height), Path.IsName name :=
    fun name member => areNames name (List.mem_of_mem_take member)
  rw [← Path.join_absolute inFront]
  unfold ProvidesAt
  refine and_congr_right fun _ => ?_
  constructor
  · rintro ⟨_, directory, isWorking, isAbove, provides⟩
    obtain rfl := Option.some.inj (working.symm.trans isWorking)
    rw [above] at isAbove
    split at isAbove
    · next onTheWay =>
      obtain rfl := Option.some.inj isAbove
      exact ⟨onTheWay, provides⟩
    · cases isAbove
  · rintro ⟨onTheWay, provides⟩
    exact ⟨_, _, working, by rw [above, if_pos onTheWay], provides⟩

theorem providesAt_iff {height : Nat} :
    surroundings.ProvidesAt height settings ↔
      ∃ path, surroundings.candidates[height]? = some path ∧ surroundings.usableSettings? path = some settings := by
  simp only [usableSettings?_eq_some_iff]
  unfold ProvidesAt candidates
  cases surroundings.directory with
  | none => simp
  | some working =>
    simp only [List.getElem?_map, Path.getElem?_ancestors, Option.map_eq_some_iff]
    by_cases within : height < searchDepth
    · simp [within]
    · simp [within]

/-- The nearest settings are those at some height, with none that can be used below it. -/
theorem findSome?_candidates_eq_some_iff :
    surroundings.candidates.findSome? surroundings.usableSettings? = some settings ↔
      ∃ height, surroundings.ProvidesAt height settings ∧
        ∀ nearer < height, ∀ other, ¬ surroundings.ProvidesAt nearer other := by
  simp only [providesAt_iff]
  exact findSome?_eq_some_iff_getElem?

theorem findSome?_candidates_eq_none_iff :
    surroundings.candidates.findSome? surroundings.usableSettings? = none ↔
      ∀ height other, ¬ surroundings.ProvidesAt height other := by
  rw [List.findSome?_eq_none_iff]
  simp only [providesAt_iff]
  constructor
  · rintro unusable height other ⟨path, isPath, usable⟩
    exact Option.some_ne_none _ (usable.symm.trans (unusable path (List.mem_of_getElem? isPath)))
  · intro none path member
    obtain ⟨height, isPath⟩ := List.getElem?_of_mem member
    exact Option.eq_none_iff_forall_ne_some.2 fun other usable => none height other ⟨path, isPath, usable⟩

end Surroundings

/-! ## Settings before the command line has its say -/

namespace Request

variable {request : Request} {surroundings : Surroundings}

/-- The settings that a request starts from. -/
inductive StartsFrom (request : Request) (surroundings : Surroundings) : Settings → Prop
  | asked {path : String} {settings : Settings} (isAsked : request.config = some path)
    (provides : surroundings.Provides path settings) : StartsFrom request surroundings settings
  | nearest {height : Nat} {settings : Settings} (notAsked : request.config = none)
    (provides : surroundings.ProvidesAt height settings)
    (nearest : ∀ nearer < height, ∀ other, ¬ surroundings.ProvidesAt nearer other) :
    StartsFrom request surroundings settings
  | default (notAsked : request.config = none) (none : ∀ height other, ¬ surroundings.ProvidesAt height other) :
    StartsFrom request surroundings {}

theorem startsFrom_iff {settings : Settings} :
    request.StartsFrom surroundings settings ↔ request.start surroundings = .ok settings := by
  unfold start
  cases config : request.config with
  | some path =>
    rw [Surroundings.settingsAt_eq_ok_iff]
    constructor
    · rintro (⟨isAsked, provides⟩ | ⟨notAsked⟩ | ⟨notAsked⟩)
      · rw [config] at isAsked
        obtain rfl := Option.some.inj isAsked
        exact provides
      · rw [config] at notAsked
        cases notAsked
      · rw [config] at notAsked
        cases notAsked
    · exact .asked config
  | none =>
    unfold Surroundings.nearestSettings
    constructor
    · rintro (⟨isAsked⟩ | ⟨-, provides, nearest⟩ | ⟨-, none⟩)
      · rw [config] at isAsked
        cases isAsked
      · rw [Surroundings.findSome?_candidates_eq_some_iff.2 ⟨_, provides, nearest⟩]
        rfl
      · rw [Surroundings.findSome?_candidates_eq_none_iff.2 none]
        rfl
    · cases search : surroundings.candidates.findSome? surroundings.usableSettings? with
      | none =>
        rintro ⟨⟩
        exact .default config (Surroundings.findSome?_candidates_eq_none_iff.1 search)
      | some found =>
        rintro ⟨⟩
        obtain ⟨_, provides, nearest⟩ := Surroundings.findSome?_candidates_eq_some_iff.1 search
        exact .nearest config provides nearest

/-- A request can start if the file that was asked for, if any, can be used. -/
theorem exists_startsFrom_iff :
    (∃ settings, request.StartsFrom surroundings settings) ↔
      ∀ path, request.config = some path → ∃ found, surroundings.Provides path found := by
  simp only [startsFrom_iff, start]
  cases request.config with
  | none => simp
  | some path => simp [Surroundings.settingsAt_eq_ok_iff]

/-- A request has one start. -/
theorem StartsFrom.unique {settings other : Settings} (starts : request.StartsFrom surroundings settings)
    (startsToo : request.StartsFrom surroundings other) : other = settings :=
  Except.ok.inj ((startsFrom_iff.1 startsToo).symm.trans (startsFrom_iff.1 starts))

/-- Whatever a request starts from passes the check. -/
theorem StartsFrom.valid {settings : Settings} (starts : request.StartsFrom surroundings settings) : settings.Valid := by
  rcases starts with ⟨-, provides⟩ | ⟨-, provides, -⟩ | ⟨-, -⟩
  · obtain ⟨_, _, _, valid⟩ := provides
    exact valid
  · obtain ⟨-, _, _, _, _, _, _, _, valid⟩ := provides
    exact valid
  · exact Settings.valid_default

/-- The settings of a run are what it starts from with what the command line says, if that passes the check. -/
theorem settings_eq_ok_iff {settings : Settings} :
    request.settings surroundings = .ok settings ↔
      ∃ start, request.StartsFrom surroundings start ∧ request.override start = settings ∧ settings.Valid := by
  simp only [startsFrom_iff]
  unfold Request.settings
  cases request.start surroundings with
  | error => simp
  | ok start => simp [Settings.checked_eq_ok_iff]

/-- The second check can only fail for a blank framework on the command line. -/
theorem valid_override_iff {settings : Settings} (valid : settings.Valid) :
    (request.override settings).Valid ↔ ∀ framework, request.framework = some framework → isBlankText framework = false := by
  have named : isBlankText (request.framework.getD settings.framework) = false ↔
      ∀ framework, request.framework = some framework → isBlankText framework = false := by
    cases request.framework with
    | none => simp [valid.named]
    | some framework => simp
  rw [← named]
  exact ⟨fun overridden => overridden.named, fun isNamed => ⟨isNamed, valid.roomy⟩⟩

end Request

/-- **Which settings a run has.** It has some exactly if a file that was asked for can be used and the settings pass the
check with what the command line says, which they do unless it names a blank framework. They pass the check; framework and
extension are those of the command line where it gives them, and everything else comes from the file that was asked for,
or from the nearest usable file, or from the defaults. The directories that are searched are the working directory and
those above it, ten in all. -/
theorem settings_resolved (request : Request) (surroundings : Surroundings) :
    ((∃ settings, request.settings surroundings = .ok settings) ↔
      (∀ path, request.config = some path → ∃ found, surroundings.Provides path found) ∧
        ∀ start, request.StartsFrom surroundings start → (request.override start).Valid) ∧
    (∀ start, request.StartsFrom surroundings start →
      ((request.override start).Valid ↔
        ∀ framework, request.framework = some framework → isBlankText framework = false)) ∧
    (∀ settings, request.settings surroundings = .ok settings →
      settings.Valid ∧
      (∀ framework, request.framework = some framework → settings.framework = framework) ∧
      (∀ extension, request.extension = some extension → settings.extension = extension) ∧
      ∃ start, request.StartsFrom surroundings start ∧ (∀ other, request.StartsFrom surroundings other → other = start) ∧
        (request.framework = none → settings.framework = start.framework) ∧
        (request.extension = none → settings.extension = start.extension) ∧ settings.room = start.room) ∧
    ∀ names, surroundings.directory = some (Path.absolute names) → (∀ name ∈ names, Path.IsName name) →
      ∀ height settings, surroundings.ProvidesAt height settings ↔ height < 10 ∧ height ≤ names.length ∧
        surroundings.Provides (Path.absolute (names.take (names.length - height) ++ [".stepmap.toml"])) settings := by
  refine ⟨⟨?_, ?_⟩, fun start starts => Request.valid_override_iff starts.valid, ?_,
    fun names working areNames height settings => Surroundings.providesAt_absolute working areNames⟩
  · rintro ⟨settings, resolved⟩
    obtain ⟨start, starts, rfl, valid⟩ := Request.settings_eq_ok_iff.1 resolved
    exact ⟨Request.exists_startsFrom_iff.1 ⟨start, starts⟩, fun other startsToo => starts.unique startsToo ▸ valid⟩
  · rintro ⟨usable, valid⟩
    obtain ⟨start, starts⟩ := Request.exists_startsFrom_iff.2 usable
    exact ⟨_, Request.settings_eq_ok_iff.2 ⟨start, starts, rfl, valid start starts⟩⟩
  · intro settings resolved
    obtain ⟨start, starts, rfl, valid⟩ := Request.settings_eq_ok_iff.1 resolved
    refine ⟨valid, fun framework given => ?_, fun extension given => ?_, start, starts, fun other => starts.unique,
      fun notGiven => ?_, fun notGiven => ?_, rfl⟩
    · rw [Request.override, given, Option.getD_some]
    · rw [Request.override, given, Option.getD_some]
    · rw [Request.override, notGiven, Option.getD_none]
    · rw [Request.override, notGiven, Option.getD_none]

end StepChart
