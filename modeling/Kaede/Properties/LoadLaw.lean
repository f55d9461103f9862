import Kaede.Properties.NativeFallback
import Kaede.Properties.Numbered

/-!
# What a finished load does to the chat

The coroutine of a load drops the `ModelInfo` that the load returned, and shows one of its own.
Its collector never ends. It reports the progress of later loads as well, so one more retry is one
more "ready" message for each of them.

* `loadLaw_iff` — the law of the load states holds exactly in the runs in which no load completes
* `soleLoad_of_run` — without a retry, the load is announced once, and not before it has completed
-/

namespace Kaede

open Infra

/-! ## What a load returns -/

/-- A path that starts at the root is no relative one. -/
theorem AbsolutePath.ne_cache (dir : AbsolutePath) : dir.path ≠ utf16 "cache" :=
  dir.ne_of_head? (by decide)

/-- No load returns the path that the collector shows. -/
theorem MlcLlm.loadModelFromAssets_path {native : NativeLayer} {storage : Storage}
    {modelAssetName : Text} {params : GenerationParams} {m : MlcLlm} :
    ¬ Jvm.Returns (loadModelFromAssets native storage modelAssetName params) m
      (fun info _ => info.path = utf16 "cache") := by
  have hstub : utf16 "stub" ≠ utf16 "cache" := by decide
  simp [loadModelFromAssets, loadFromCache, loadNative, setLoadProgress, setModelLoaded, fileCall,
    stubInfo, hstub, AbsolutePath.ne_cache]

theorem ModelLoader.outcome_ne_collectorInfo {isNativeLoaded : Bool} {native : NativeLayer}
    {storage : Storage} {info : ModelInfo}
    (h : (modelLoad isNativeLoaded native storage).outcome = .ok info) : info ≠ collectorInfo := by
  rintro rfl
  exact MlcLlm.loadModelFromAssets_path ⟨_, _, Prod.ext h rfl, rfl⟩

/-- A load that returns has reported the full progress last. -/
theorem MlcLlm.loadModelFromAssets_progress {native : NativeLayer} {storage : Storage}
    {modelAssetName : Text} {params : GenerationParams} {m : MlcLlm} :
    ¬ Jvm.Returns (loadModelFromAssets native storage modelAssetName params) m
      (fun _ m' => m'.loadProgress.getLast? ≠ some 100) := by
  simp [loadModelFromAssets, loadFromCache, loadNative, setLoadProgress, setModelLoaded, fileCall]

theorem ModelLoader.pending_getLast?_modelLoad {isNativeLoaded : Bool} {native : NativeLayer}
    {storage : Storage} {info : ModelInfo}
    (h : (modelLoad isNativeLoaded native storage).outcome = .ok info) :
    (modelLoad isNativeLoaded native storage).pending.getLast? = some 100 := by
  by_contra hlast
  exact MlcLlm.loadModelFromAssets_progress ⟨_, _, Prod.ext h rfl, hlast⟩

namespace ChatViewModel

variable {vm next s : ChatViewModel} {event : Event} {es : List Event}

/-! ## The law -/

/--
The law of the load states along a run: a completed load has added one "ready" message, it moved
the state to `Success` with what it returned, and the state is not `Success` while the load that
was started last is running.
-/
structure LoadLaw (s : ChatViewModel) (es : List Event) : Prop where
  announced : ∀ xs ys vm, es = xs ++ ys → machine.run s xs = some vm →
    ∀ (j : Nat) (load : ModelLoad), vm.loader.loads[j]? = some load → load.stage ≠ .running →
      vm.trace.published.countP (·.source = .ready j) = 1
  carries : ∀ xs j ys vm, es = xs ++ .load (.returned j) :: ys →
    machine.run s (xs ++ [.load (.returned j)]) = some vm →
    ∀ (load : ModelLoad) (info : ModelInfo), vm.loader.loads[j]? = some load →
      load.outcome = .ok info → vm.loader.modelState = .success info
  waits : ∀ xs ys vm, es = xs ++ ys → machine.run s xs = some vm →
    vm.loader.modelState.isReady = true → ∀ load ∈ vm.loader.loads.getLast?,
      load.stage ≠ .running

/-! ## What the loader shows -/

/-- No load returned what the collector shows, `Success` shows nothing else, and it is shown only
after some load has completed. -/
structure Shown (loader : ModelLoader) : Prop where
  outcomes : ∀ load ∈ loader.loads, ∀ info, load.outcome = .ok info →
    info ≠ ModelLoader.collectorInfo
  success : ∀ info, loader.modelState = .success info → info = ModelLoader.collectorInfo
  completed : loader.modelState.isReady = true → ∃ load ∈ loader.loads, load.stage ≠ .running

theorem onProgress_success {j progress : Nat} {modelState : ModelLoadState} {info : ModelInfo}
    (h : (ModelLoader.onProgress j progress modelState).1 = .success info) :
    info = ModelLoader.collectorInfo ∨ modelState = .success info := by
  unfold ModelLoader.onProgress at h
  by_cases hready : 100 ≤ progress
  · rw [if_pos hready] at h
    cases h
    exact Or.inl rfl
  · rw [if_neg hready] at h
    by_cases hpos : 0 < progress
    · rw [if_pos hpos] at h
      cases h
    · rw [if_neg hpos] at h
      exact Or.inr h

theorem mem_set_of_getElem? {α : Type*} {l : List α} {i : Nat} {a b : α} (h : l[i]? = some a) :
    b ∈ l.set i b := by
  obtain ⟨hlt, _⟩ := List.getElem?_eq_some_iff.mp h
  exact List.mem_set hlt b

theorem shown_collect {loader : ModelLoader} {j : Nat} {load : ModelLoad} (hs : Shown loader)
    (hj : loader.loads[j]? = some load) : Shown (loader.collect j load).1 := by
  refine ⟨?_, ?_, ?_⟩
  · intro l hl info hinfo
    rcases List.mem_or_eq_of_mem_set hl with hl | hl
    · exact hs.outcomes l hl info hinfo
    · rw [hl] at hinfo
      exact hs.outcomes load (List.mem_of_getElem? hj) info hinfo
  · intro info hinfo
    rcases onProgress_success hinfo with h | h
    · exact h
    · exact hs.success info h
  · intro _
    exact ⟨_, mem_set_of_getElem? hj, by rintro ⟨⟩⟩

theorem shown_transition {loader next : ModelLoader} {event : LoadEvent} {effect : LoadEffect}
    (h : ModelLoader.Transition loader event next effect) (hs : Shown loader) : Shown next := by
  cases h with
  | retry native storage =>
    refine ⟨?_, by rintro info ⟨⟩, by rintro ⟨⟩⟩
    intro l hl info hinfo
    rcases List.mem_append.mp hl with hl | hl
    · exact hs.outcomes l hl info hinfo
    · rw [List.mem_singleton] at hl
      rw [hl] at hinfo
      exact ModelLoader.outcome_ne_collectorInfo hinfo
  | wrote j progress pending outcome hj =>
    refine ⟨?_, hs.success, ?_⟩
    · intro l hl info hinfo
      rcases List.mem_or_eq_of_mem_set hl with hl | hl
      · exact hs.outcomes l hl info hinfo
      · rw [hl] at hinfo
        exact hs.outcomes _ (List.mem_of_getElem? hj) info hinfo
    · intro hready
      obtain ⟨l, hl, hstage⟩ := hs.completed hready
      obtain ⟨k, hk⟩ := List.mem_iff_getElem?.mp hl
      have hne : j ≠ k := by
        rintro rfl
        rw [hj, Option.some.injEq] at hk
        rw [← hk] at hstage
        exact hstage rfl
      exact ⟨l, List.mem_of_getElem? (by rw [List.getElem?_set_ne hne]; exact hk), hstage⟩
  | returned j info hj => exact shown_collect hs hj
  | crashed j t hj => exact hs
  | collected j load lastSeen hj hstage hnew => exact shown_collect hs hj

/-- Only a step of a load changes the loader. -/
theorem loader_cases (h : Transition vm event next) :
    next.loader = vm.loader ∨ ∃ loadEvent effect, event = .load loadEvent ∧
      ModelLoader.Transition vm.loader loadEvent next.loader effect := by
  cases h with
  | loaded event loader effect hstep =>
    have htransition := ModelLoader.transition_of_step hstep
    cases effect <;> exact Or.inr ⟨event, _, rfl, htransition⟩
  | _ => exact Or.inl rfl

theorem transition_of_load {loadEvent : LoadEvent} (h : vm.step (.load loadEvent) = some next) :
    ∃ effect, ModelLoader.Transition vm.loader loadEvent next.loader effect := by
  obtain ⟨loader, effect, hstep, rfl⟩ := loaded_of_transition (transition_of_step h)
  have htransition := ModelLoader.transition_of_step hstep
  cases effect <;> exact ⟨_, htransition⟩

theorem shown_step (vm : ChatViewModel) (event : Event) (next : ChatViewModel)
    (h : Transition vm event next) (hs : Shown vm.loader) : Shown next.loader := by
  rcases loader_cases h with hsame | ⟨loadEvent, effect, _, htransition⟩
  · rw [hsame]
    exact hs
  · exact shown_transition htransition hs

/-! ## Runs in which no load completes -/

/-- The step does not complete a load. -/
def CompletesNoLoad (vm : ChatViewModel) (event : Event) : Prop :=
  ∀ j load info, event = .load (.returned j) → vm.loader.loads[j]? = some load →
    load.outcome ≠ .ok info

theorem running_step (vm : ChatViewModel) (event : Event) (next : ChatViewModel)
    (h : Transition vm event next) (hno : CompletesNoLoad vm event)
    (hr : ∀ load ∈ vm.loader.loads, load.stage = .running) :
    ∀ load ∈ next.loader.loads, load.stage = .running := by
  rcases loader_cases h with hsame | ⟨loadEvent, effect, rfl, htransition⟩
  · rw [hsame]
    exact hr
  · intro load hload
    generalize hnext : next.loader = loader at htransition hload
    cases htransition with
    | retry native storage =>
      rcases List.mem_append.mp hload with hload | hload
      · exact hr load hload
      · rw [List.mem_singleton] at hload
        rw [hload]
        rfl
    | wrote j progress pending outcome hj =>
      rcases List.mem_or_eq_of_mem_set hload with hload | hload
      · exact hr load hload
      · rw [hload]
    | returned j info hj => exact absurd rfl (hno j _ info rfl hj)
    | crashed j t hj => exact hr load hload
    | collected j l lastSeen hj hstage hnew =>
      rw [hr l (List.mem_of_getElem? hj)] at hstage
      cases hstage

/-- A load that completes never moves the state to what it returned. -/
theorem completesNoLoad_of_loadLaw {xs ys : List Event} (hs : Shown s.loader)
    (hlaw : LoadLaw s (xs ++ event :: ys)) (hxs : machine.run s xs = some vm)
    (hstep : vm.step event = some next) : CompletesNoLoad vm event := by
  rintro j load info rfl hj hinfo
  have hrun : machine.run s (xs ++ [.load (.returned j)]) = some next :=
    Machine.run_concat machine hxs (show machine.step vm _ = some next from hstep)
  have hshown : Shown next.loader :=
    invariant_of_run (I := fun vm => Shown vm.loader) shown_step hs hrun
  obtain ⟨effect, htransition⟩ := transition_of_load hstep
  generalize hnext : next.loader = loader at htransition hshown
  cases htransition with
  | returned j info' hj' =>
    obtain ⟨hlt, _⟩ := List.getElem?_eq_some_iff.mp hj'
    rw [hj', Option.some.injEq] at hj
    rw [← hj] at hinfo
    cases hinfo
    have hget : next.loader.loads[j]? =
        some ⟨[], .ok info, .collecting vm.loader.loadProgress⟩ := by
      rw [hnext]
      exact List.getElem?_set_self hlt
    have hsuccess := hlaw.carries xs j ys next rfl hrun _ info hget rfl
    rw [hnext] at hsuccess hget
    exact hshown.outcomes _ (List.mem_of_getElem? hget) info rfl (hshown.success info hsuccess)
  | crashed j t hj' =>
    rw [hj', Option.some.injEq] at hj
    rw [← hj] at hinfo
    cases hinfo

/-- **The law of the load states holds exactly in the runs in which no load completes.** -/
theorem loadLaw_iff {now : Int} {database : MemoryTable} {isNativeLoaded : Bool}
    {native : NativeLayer} {storage : Storage}
    (hrun : machine.run (init now database isNativeLoaded native storage) es = some vm) :
    LoadLaw (init now database isNativeLoaded native storage) es ↔
      machine.Along CompletesNoLoad (init now database isNativeLoaded native storage) es := by
  have hloads : ∀ load ∈ (init now database isNativeLoaded native storage).loader.loads,
      load = ModelLoader.modelLoad isNativeLoaded native storage :=
    fun load hload => List.mem_singleton.mp hload
  have hshown : Shown (init now database isNativeLoaded native storage).loader := by
    refine ⟨?_, by rintro info ⟨⟩, by rintro ⟨⟩⟩
    intro load hload info hinfo
    rw [hloads load hload] at hinfo
    exact ModelLoader.outcome_ne_collectorInfo hinfo
  constructor
  · intro hlaw
    refine Machine.along_iff_prefix.mpr fun xs event ys t hes ht => ?_
    subst hes
    obtain ⟨u, hstep, _⟩ := Machine.step_of_run machine hrun ht
    exact completesNoLoad_of_loadLaw hshown hlaw ht hstep
  · intro hno
    have hnone : ∀ xs ys t, es = xs ++ ys →
        machine.run (init now database isNativeLoaded native storage) xs = some t →
        ∀ load ∈ t.loader.loads, load.stage = .running := by
      rintro xs ys t rfl ht
      refine invariant_of_run_along
        (I := fun vm => ∀ load ∈ vm.loader.loads, load.stage = .running) running_step
        (Machine.along_append.mp hno).1 ?_ ht
      intro load hload
      rw [hloads load hload]
      rfl
    refine ⟨?_, ?_, ?_⟩
    · intro xs ys t hes ht j load hj hstage
      exact absurd (hnone xs ys t hes ht load (List.mem_of_getElem? hj)) hstage
    · intro xs j ys t hes ht load info hj hinfo
      obtain ⟨u, hu, hstep⟩ := (Machine.run_concat_eq_some machine).mp ht
      -- the load that returned is collecting
      have hrunning := hnone (xs ++ [.load (.returned j)]) ys t (by rw [hes]; simp) ht load
        (List.mem_of_getElem? hj)
      obtain ⟨effect, htransition⟩ := transition_of_load hstep
      generalize t.loader = loader at htransition hj ⊢
      cases htransition with
      | returned j info' hj' =>
        obtain ⟨hlt, _⟩ := List.getElem?_eq_some_iff.mp hj'
        have hcollecting := (List.getElem?_set_self hlt).symm.trans hj
        rw [Option.some.injEq] at hcollecting
        rw [← hcollecting] at hrunning
        cases hrunning
      | crashed j t hj' =>
        rw [hj', Option.some.injEq] at hj
        rw [← hj] at hinfo
        cases hinfo
    · intro xs ys t hes ht hready
      have hs : Shown t.loader :=
        invariant_of_run (I := fun vm => Shown vm.loader) shown_step hshown ht
      obtain ⟨load, hload, hstage⟩ := hs.completed hready
      exact absurd (hnone xs ys t hes ht load hload) hstage

theorem loadLaw_iff_boot :
    ∃ vm, machine.run phone boot = some vm ∧
      (LoadLaw phone boot ↔ machine.Along CompletesNoLoad phone boot) := by
  have hsome : (machine.run phone boot).isSome = true := by decide +kernel
  obtain ⟨vm, hrun⟩ := exists_run_of_isSome hsome
  exact ⟨vm, hrun, loadLaw_iff hrun⟩

/-- A retry after the first load. The collector of the first load reports the progress of the
second. -/
def bootAndRetry : List Event :=
  boot ++
    [.load (.retry idleLibrary bareStorage), .load (.wrote 1), .load (.collected 0),
      .load (.wrote 1), .load (.collected 0)]

/-- The first load is announced twice, and the model is ready while the second load is running.
What is shown is not what the load returned. -/
theorem bootAndRetry_breaks_law :
    ∃ vm, machine.run phone bootAndRetry = some vm ∧
      vm.trace.published.countP (·.source = .ready 0) = 2 ∧
      vm.loader.modelState = .success ModelLoader.collectorInfo ∧
      vm.loader.loads.map (·.stage) = [.collecting 100, .running] ∧
      vm.loader.loads.map (·.outcome.toOption.map (·.path)) =
        [some (utf16 "stub"), some (utf16 "stub")] ∧
      ¬ LoadLaw phone bootAndRetry := by
  have hview : (machine.run phone bootAndRetry).map (fun vm =>
      (vm.trace.published.countP (·.source = .ready 0), vm.loader.modelState,
        vm.loader.loads.map (·.stage))) =
      some (2, .success ModelLoader.collectorInfo, [.collecting 100, .running]) := by
    decide +kernel
  have hreturned : (machine.run phone bootAndRetry).map (fun vm =>
      vm.loader.loads.map (·.outcome.toOption.map (·.path))) =
      some [some (utf16 "stub"), some (utf16 "stub")] := by decide +kernel
  obtain ⟨vm, hrun, hvm⟩ := Option.map_eq_some_iff.mp hview
  simp only [Prod.mk.injEq] at hvm
  obtain ⟨hcount, hstate, hstages⟩ := hvm
  rw [hrun] at hreturned
  have hpaths := Option.some.inj hreturned
  refine ⟨vm, hrun, hcount, hstate, hstages, hpaths, fun hlaw => ?_⟩
  obtain ⟨load, hload, hstage⟩ : ∃ load, vm.loader.loads[0]? = some load ∧
      load.stage = .collecting 100 := by
    have hfirst := congrArg (·[0]?) hstages
    rw [List.getElem?_map] at hfirst
    exact Option.map_eq_some_iff.mp hfirst
  have hone := hlaw.announced bootAndRetry [] vm (List.append_nil _).symm hrun 0 load hload
    (by rw [hstage]; rintro ⟨⟩)
  rw [hcount] at hone
  cases hone

/-! ## Without a retry -/

/-- What the only load has told the chat: nothing while it runs, and that it is ready, once, when
it has completed. -/
def SoleLoad (vm : ChatViewModel) : Prop :=
  ∃ load, vm.loader.loads = [load] ∧
    match load.stage with
    | .running =>
      vm.trace.published.countP (·.source = .ready 0) = 0 ∧
        vm.loader.modelState.isReady = false ∧
        ∀ info, load.outcome = .ok info →
          (vm.loader.loadProgress :: load.pending).getLast? = some 100
    | .collecting lastSeen =>
      vm.trace.published.countP (·.source = .ready 0) = 1 ∧
        vm.loader.modelState.isReady = true ∧ lastSeen = vm.loader.loadProgress

/-- A step that is not a load's adds no "ready" message. -/
theorem announced_of_not_load (h : Transition vm event next)
    (hevent : ∀ loadEvent, event ≠ .load loadEvent) (j : Nat) :
    next.trace.published.countP (·.source = .ready j) =
      vm.trace.published.countP (·.source = .ready j) := by
  have hadd : ∀ message : ChatMessage, message.source ≠ .ready j →
      (vm.trace.published ++ [message]).countP (·.source = .ready j) =
        vm.trace.published.countP (·.source = .ready j) := by
    intro message hsource
    rw [List.countP_append, List.countP_singleton, if_neg (by simpa using hsource), Nat.add_zero]
  cases h with
  | refused userMessage hready => exact hadd _ (by rintro ⟨⟩)
  | accepted userMessage hready => exact hadd _ (by rintro ⟨⟩)
  | replied i generation prompt streamed hi hphase himportance => exact hadd _ (by rintro ⟨⟩)
  | repliedImportant i generation prompt streamed hi hphase himportance =>
    exact hadd _ (by rintro ⟨⟩)
  | failed i event generation hi hresumes => exact hadd _ (by rintro ⟨⟩)
  | cleared => exact hadd _ (by rintro ⟨⟩)
  | loaded event loader effect hstep => exact absurd rfl (hevent event)
  | _ => rfl

/-- The collector of the only load sees the full progress, and says so. -/
theorem soleLoad_collect {loader : ModelLoader} {load : ModelLoad}
    (hloads : loader.loads = [load]) (hprogress : loader.loadProgress = 100)
    (hcount : vm.trace.published.countP (·.source = .ready 0) = 0) :
    SoleLoad (vm.onLoad (loader.collect 0 load).1 (loader.collect 0 load).2) := by
  have hready : ModelLoader.onProgress 0 loader.loadProgress loader.modelState =
      (.success ModelLoader.collectorInfo, .ready 0) := by
    rw [hprogress]
    rfl
  unfold ModelLoader.collect
  rw [hready, hloads]
  refine ⟨_, rfl, ?_, rfl, rfl⟩
  show List.countP _ (vm.trace.published ++ [_]) = 1
  rw [List.countP_append, hcount, List.countP_singleton, if_pos (by simp)]

theorem soleLoad_step (vm : ChatViewModel) (event : Event) (next : ChatViewModel)
    (h : Transition vm event next)
    (hno : ∀ native storage, event ≠ .load (.retry native storage)) (hs : SoleLoad vm) :
    SoleLoad next := by
  by_cases hevent : ∃ loadEvent, event = .load loadEvent
  · obtain ⟨loadEvent, rfl⟩ := hevent
    obtain ⟨load, hloads, hsole⟩ := hs
    obtain ⟨loader, effect, hstep, rfl⟩ := loaded_of_transition h
    cases ModelLoader.transition_of_step hstep with
    | retry native storage => exact absurd rfl (hno native storage)
    | wrote j progress pending outcome hj =>
      rw [hloads] at hj
      obtain ⟨rfl, rfl⟩ := eq_of_getElem?_singleton hj
      obtain ⟨hcount, hready, hlast⟩ := hsole
      refine ⟨⟨pending, outcome, .running⟩, ?_, hcount, hready, fun info hinfo => ?_⟩
      · show vm.loader.loads.set 0 _ = _
        rw [hloads]
        rfl
      · have hlast' := hlast info hinfo
        rw [List.getLast?_cons_cons] at hlast'
        exact hlast'
    | returned j info hj =>
      have hj' := hj
      rw [hloads] at hj'
      obtain ⟨rfl, rfl⟩ := eq_of_getElem?_singleton hj'
      obtain ⟨hcount, _, hlast⟩ := hsole
      have hprogress := hlast info rfl
      rw [List.getLast?_singleton, Option.some.injEq] at hprogress
      exact soleLoad_collect hloads hprogress hcount
    | crashed j t hj => exact ⟨load, hloads, hsole⟩
    | collected j load' lastSeen hj hstage hnew =>
      -- the progress does not change any more
      rw [hloads] at hj
      obtain ⟨rfl, rfl⟩ := eq_of_getElem?_singleton hj
      rw [hstage] at hsole
      exact absurd hsole.2.2 hnew
  · have hnot : ∀ loadEvent, event ≠ .load loadEvent := fun e he => hevent ⟨e, he⟩
    rcases loader_cases h with hsame | ⟨loadEvent, _, rfl, _⟩
    · unfold SoleLoad
      rw [hsame, announced_of_not_load h hnot]
      exact hs
    · exact absurd rfl (hnot loadEvent)

/-- **Without a retry, the one load is announced once, and the model is ready only when it has
completed.** -/
theorem soleLoad_of_run {now : Int} {database : MemoryTable} {isNativeLoaded : Bool}
    {native : NativeLayer} {storage : Storage}
    (hrun : machine.run (init now database isNativeLoaded native storage) es = some vm)
    (hno : ∀ event ∈ es, ∀ native storage, event ≠ .load (.retry native storage)) :
    SoleLoad vm := by
  refine invariant_of_run_along (fun vm event next h hg hi => soleLoad_step vm event next h hg hi)
    ((Machine.along_const_iff hrun).mpr hno) ?_ hrun
  refine ⟨ModelLoader.modelLoad isNativeLoaded native storage, rfl, rfl, rfl, fun info hinfo => ?_⟩
  rw [List.getLast?_cons, ModelLoader.pending_getLast?_modelLoad hinfo]
  rfl

end ChatViewModel

end Kaede
