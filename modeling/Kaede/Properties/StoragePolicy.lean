import Kaede.Properties.Importance
import Kaede.Properties.MemoryPipeline
import Mathlib.Data.List.Perm.Basic

/-!
# Two policies for long-term storage

The view model saves a message by its importance, from 5 on. `shouldSaveToLongTerm` asks for 7, or
for a personal phrase.

* `onePolicy_iff` — the messages on which the two agree
* `balance_of_run` — what a run adds to the table, whatever runs at once
* `storedByPolicy_iff` — the table follows the second policy exactly when both agree on every message
-/

namespace Kaede

open Infra

/-! ## Two thresholds -/

namespace PromptBuilder

open MemoryManager

variable {message lowerMessage : Text}

/-- The patterns of the cascade, each with a keyword that it contains. -/
def bonusPatterns : List (String × String) :=
  [("my name is", "name"), ("call me", "call me"), ("i like", "like"), ("i love", "love"),
    ("i feel", "feel"), ("remember", "remember")]

/-- One of the patterns that give a bonus occurs. -/
def HasBonus (lowerMessage : Text) : Prop :=
  ∃ pattern ∈ bonusPatterns, contains lowerMessage (utf16 pattern.1) = true

/-- One of the personal phrases occurs. -/
def Personal (lowerMessage : Text) : Prop :=
  ∃ keyword ∈ personalKeywords, contains lowerMessage (utf16 keyword) = true

theorem keyword_of_bonusPatterns :
    ∀ pattern ∈ bonusPatterns, pattern.2 ∈ importantKeywords ∧
      contains (utf16 pattern.1) (utf16 pattern.2) = true := by
  decide +kernel

/-- A pattern contains a keyword. -/
theorem keywords_pos_of_hasBonus (h : HasBonus lowerMessage) :
    0 < (keywordsIn lowerMessage).length := by
  obtain ⟨pattern, hpattern, hoccurs⟩ := h
  obtain ⟨hkeyword, hinside⟩ := keyword_of_bonusPatterns pattern hpattern
  refine List.length_pos_of_mem (List.mem_filter.mpr ⟨hkeyword, ?_⟩)
  exact contains_mono (contains_iff.mp hoccurs) hinside

theorem hasBonus_iff :
    HasBonus lowerMessage ↔
      contains lowerMessage (utf16 "my name is") = true ∨
        contains lowerMessage (utf16 "call me") = true ∨
        contains lowerMessage (utf16 "i like") = true ∨
        contains lowerMessage (utf16 "i love") = true ∨
        contains lowerMessage (utf16 "i feel") = true ∨
        contains lowerMessage (utf16 "remember") = true := by
  simp [HasBonus, bonusPatterns]

theorem patternBonus_of_not_hasBonus (h : ¬ HasBonus lowerMessage) :
    patternBonus lowerMessage = 0 := by
  rw [hasBonus_iff] at h
  push Not at h
  simp [patternBonus, h]

/-- Only the name gives a bonus of five, and it is personal. -/
theorem bonus_of_hasBonus (h : HasBonus lowerMessage) :
    3 ≤ patternBonus lowerMessage ∧
      (patternBonus lowerMessage ≤ 4 ∨
        patternBonus lowerMessage = 5 ∧ Personal lowerMessage) := by
  rw [hasBonus_iff] at h
  unfold patternBonus
  split
  · next hname =>
    exact ⟨by decide, Or.inr ⟨rfl, "my name is", by simp [personalKeywords], hname⟩⟩
  · next hname =>
    have hrest := h.resolve_left hname
    refine ⟨?_, Or.inl ?_⟩
    · split
      · decide
      · next hcall =>
        have hrest := hrest.resolve_left hcall
        split
        · decide
        · next hlike =>
          rw [Bool.or_eq_true_iff, not_or] at hlike
          have hrest := (hrest.resolve_left hlike.1).resolve_left hlike.2
          split
          · decide
          · next hfeel => rw [if_pos (hrest.resolve_left hfeel)]; decide
    · repeat' split
      all_goals decide

/-- Any pattern is enough for the view model. -/
theorem important_iff :
    Important message ↔
      HasBonus (lowercase message) ∨ 3 ≤ (keywordsIn (lowercase message)).length := by
  rw [Important, calculateImportance_eq]
  by_cases hbonus : HasBonus (lowercase message)
  · have hpos := keywords_pos_of_hasBonus hbonus
    have hthree := (bonus_of_hasBonus hbonus).1
    exact iff_of_true (by omega) (Or.inl hbonus)
  · rw [patternBonus_of_not_hasBonus hbonus]
    constructor
    · exact fun h => Or.inr (by omega)
    · intro h
      have hmany := h.resolve_left hbonus
      omega

/-- The memory manager asks for more, or for something personal. -/
theorem shouldSaveToLongTerm_iff :
    shouldSaveToLongTerm message (calculateImportance message) = true ↔
      4 ≤ (keywordsIn (lowercase message)).length ∨
        (HasBonus (lowercase message) ∧ 2 ≤ (keywordsIn (lowercase message)).length) ∨
        Personal (lowercase message) := by
  have hpersonal : shouldSaveToLongTerm message (calculateImportance message) = true ↔
      7 ≤ calculateImportance message ∨ Personal (lowercase message) := by
    unfold shouldSaveToLongTerm Personal
    by_cases h : autoSaveThreshold ≤ calculateImportance message
    · rw [if_pos h]
      exact iff_of_true rfl (Or.inl h)
    · rw [if_neg h, List.any_eq_true]
      exact (or_iff_right h).symm
  rw [hpersonal, calculateImportance_eq]
  by_cases hbonus : HasBonus (lowercase message)
  · obtain ⟨hthree, hfour | ⟨hfive, hname⟩⟩ := bonus_of_hasBonus hbonus
    · have hscore : 7 ≤ min (2 * ((keywordsIn (lowercase message)).length : Int) +
          patternBonus (lowercase message)) 10 ↔
          2 ≤ (keywordsIn (lowercase message)).length := by
        omega
      rw [hscore]
      simp only [hbonus, true_and]
      constructor
      · rintro (h | h)
        · exact Or.inr (Or.inl h)
        · exact Or.inr (Or.inr h)
      · rintro (h | h | h)
        · exact Or.inl (by omega)
        · exact Or.inl h
        · exact Or.inr h
    · exact iff_of_true (Or.inr hname) (Or.inr (Or.inr hname))
  · rw [patternBonus_of_not_hasBonus hbonus]
    simp only [hbonus, false_and, false_or]
    refine or_congr ?_ Iff.rfl
    omega

/-- What the message must be like for both policies to say the same. -/
structure OnePolicy (message : Text) : Prop where
  /-- A message with a pattern, or with three keywords, has one more keyword or is personal. -/
  saved : HasBonus (lowercase message) ∨ 3 ≤ (keywordsIn (lowercase message)).length →
    4 ≤ (keywordsIn (lowercase message)).length ∨
      (HasBonus (lowercase message) ∧ 2 ≤ (keywordsIn (lowercase message)).length) ∨
      Personal (lowercase message)
  /-- Any other message is not personal. -/
  passedOver : ¬ HasBonus (lowercase message) → (keywordsIn (lowercase message)).length < 3 →
    ¬ Personal (lowercase message)

/-- **The two policies agree on a message exactly when it is of this kind.** -/
theorem onePolicy_iff :
    (Important message ↔
        shouldSaveToLongTerm message (calculateImportance message) = true) ↔
      OnePolicy message := by
  rw [important_iff, shouldSaveToLongTerm_iff]
  constructor
  · intro h
    refine ⟨h.mp, fun hbonus hfew hpersonal => ?_⟩
    rcases h.mpr (Or.inr (Or.inr hpersonal)) with hbonus' | hmany
    · exact hbonus hbonus'
    · omega
  · intro h
    refine ⟨h.saved, ?_⟩
    rintro (hmany | ⟨hbonus, -⟩ | hpersonal)
    · exact Or.inr (by omega)
    · exact Or.inl hbonus
    · by_contra hnot
      rw [not_or] at hnot
      exact h.passedOver hnot.1 (by omega) hpersonal

end PromptBuilder

/-! ## What a run stores -/

namespace ChatViewModel

open PromptBuilder

variable {vm next s t : ChatViewModel} {event : Event} {es : List Event}

/-- The message whose generation has succeeded in this step. -/
def answered (vm : ChatViewModel) : Event → Option Text
  | .generated i (.ok ()) => (vm.generations[i]?).map (·.userMessage)
  | _ => none

/-- What the row will say that this generation is about to save, with its score. -/
def pendingRow (generation : Generation) : Option (Text × Int) :=
  match generation.phase with
  | .awaitSave memory => some (memory.content, memory.importanceScore)
  | _ => none

def pending (vm : ChatViewModel) : List (Text × Int) := vm.generations.filterMap pendingRow

/-- What the table says, and what is about to be saved. -/
def ledger (vm : ChatViewModel) : List (Text × Int) := vm.database.contents ++ vm.pending

/-- The save does not fail. -/
def SavesSucceed : Event → Prop
  | .memorySaved _ outcome => outcome = .ok ()
  | _ => True

/-- Saves ask for a generated id. -/
def FreshSaves (vm : ChatViewModel) : Prop :=
  ∀ generation ∈ vm.generations, ∀ memory, generation.phase = .awaitSave memory → memory.id = 0

/-! ### One generation among the others -/

section OneGeneration

variable (vm : ChatViewModel) {i : Nat} {generation : Generation} (phase : Phase)

theorem pending_await (hi : vm.generations[i]? = some generation) :
    (vm.await i generation phase).pending.Perm
      ((pendingRow { generation with phase := phase }).toList ++ (vm.finish i).pending) := by
  obtain ⟨hlt, -⟩ := List.getElem?_eq_some_iff.mp hi
  have hperm := (List.set_perm_cons_eraseIdx hlt { generation with phase := phase }).filterMap
    pendingRow
  refine hperm.trans (List.Perm.of_eq ?_)
  rw [List.filterMap_cons]
  cases pendingRow { generation with phase := phase } <;> rfl

theorem pending_eq (hi : vm.generations[i]? = some generation) :
    vm.pending.Perm ((pendingRow generation).toList ++ (vm.finish i).pending) := by
  obtain ⟨hlt, rfl⟩ := List.getElem?_eq_some_iff.mp hi
  have hperm := (List.getElem_cons_eraseIdx_perm hlt).symm.filterMap pendingRow
  refine hperm.trans (List.Perm.of_eq ?_)
  rw [List.filterMap_cons]
  cases pendingRow vm.generations[i] <;> rfl

omit vm phase in
theorem pendingRow_eq_none (h : ∀ memory, generation.phase ≠ .awaitSave memory) :
    pendingRow generation = none := by
  unfold pendingRow
  split
  · next memory hphase => exact absurd hphase (h memory)
  · rfl

/-- A generation that saves nothing, neither before nor after the step, leaves the ledger alone. -/
theorem ledger_await (hi : vm.generations[i]? = some generation)
    (hbefore : ∀ memory, generation.phase ≠ .awaitSave memory)
    (hafter : ∀ memory, phase ≠ .awaitSave memory) :
    (vm.await i generation phase).ledger.Perm vm.ledger := by
  have hawait := pending_await vm phase hi
  have hpending := pending_eq vm hi
  rw [pendingRow_eq_none hafter] at hawait
  rw [pendingRow_eq_none hbefore] at hpending
  exact (hawait.trans hpending.symm).append_left _

theorem ledger_finish (hi : vm.generations[i]? = some generation)
    (hbefore : ∀ memory, generation.phase ≠ .awaitSave memory) :
    (vm.finish i).ledger.Perm vm.ledger := by
  have hpending := pending_eq vm hi
  rw [pendingRow_eq_none hbefore] at hpending
  exact hpending.symm.append_left _

end OneGeneration

/-! ### One step -/

theorem freshSaves_await (vm : ChatViewModel) {i : Nat} {generation : Generation} {phase : Phase}
    (h : FreshSaves vm) (hphase : ∀ memory, phase = .awaitSave memory → memory.id = 0) :
    FreshSaves (vm.await i generation phase) := by
  intro other hother memory hsave
  rcases List.mem_or_eq_of_mem_set hother with hold | rfl
  · exact h other hold memory hsave
  · exact hphase memory hsave

theorem freshSaves_finish (vm : ChatViewModel) (h : FreshSaves vm) (i : Nat) : FreshSaves (vm.finish i) :=
  fun other hother => h other (List.mem_of_mem_eraseIdx hother)

theorem freshSaves_step (vm : ChatViewModel) (event : Event) (next : ChatViewModel)
    (h : Transition vm event next) (hfresh : FreshSaves vm) : FreshSaves next := by
  cases h with
  | accepted userMessage hready =>
    obtain ⟨generation, hgenerations, -, -, -, mood, hphase⟩ := accept_generations vm userMessage
    intro other hother memory hsave
    rw [hgenerations] at hother
    rcases List.mem_append.mp hother with hold | hnew
    · exact hfresh other hold memory hsave
    · rw [List.mem_singleton.mp hnew, hphase] at hsave
      cases hsave
  | promptBuilt i generation mood currentTime hi hphase =>
    exact freshSaves_await vm hfresh nofun
  | streamed i token generation prompt streamed hi hphase =>
    exact freshSaves_await { vm with currentResponse := vm.currentResponse ++ token } hfresh nofun
  | replied i generation prompt streamed hi hphase himportance =>
    exact freshSaves_finish (vm.addReply generation streamed) hfresh i
  | repliedImportant i generation prompt streamed hi hphase himportance =>
    refine freshSaves_await { vm.addReply generation streamed with
      personalityManager := (vm.personalityManager.getCurrentMood vm.now).2 } hfresh ?_
    rintro memory ⟨⟩
    rfl
  | saved i generation memory hi hphase =>
    exact freshSaves_finish
      { vm with database := MemoryRepository.saveMemory memory vm.database } hfresh i
  | failed i event generation hi hresumes => exact freshSaves_finish vm hfresh i
  | died i event generation hi hresumes => exact freshSaves_finish vm hfresh i
  | loaded event loader effect hstep => cases effect <;> exact hfresh
  | _ => exact hfresh

/-- A generation that ends in a throwable had nothing to save, as long as saves succeed. -/
theorem ledger_of_throwable {throwable : Throwable} {i : Nat} {generation : Generation}
    (hi : vm.generations[i]? = some generation)
    (hresumes : Resumes i (.error throwable) generation.phase event)
    (hsaves : SavesSucceed event) :
    (vm.finish i).ledger.Perm (vm.ledger ++ savedOf (vm.answered event).toList) := by
  have hnothing : vm.ledger ++ savedOf [] = vm.ledger := List.append_nil _
  generalize hphase : generation.phase = phase at hresumes
  have hfinish := fun h => (ledger_finish vm hi h).trans (List.Perm.of_eq hnothing.symm)
  cases hresumes with
  | memories => exact hfinish (by simp [hphase])
  | generate => exact hfinish (by simp [hphase])
  | save => cases hsaves

/-- **A step adds to the ledger what the view model saves of the message that it answers.** -/
theorem balance_step (h : Transition vm event next) (hsaves : SavesSucceed event)
    (hfresh : FreshSaves vm) :
    next.ledger.Perm (vm.ledger ++ savedOf (vm.answered event).toList) := by
  have hnothing : vm.ledger ++ savedOf [] = vm.ledger := List.append_nil _
  cases h with
  | accepted userMessage hready =>
    obtain ⟨generation, hgenerations, -, -, -, mood, hphase⟩ := accept_generations vm userMessage
    have hnone : pendingRow generation = none := pendingRow_eq_none (by simp [hphase])
    have hpending : (vm.accept userMessage).pending = vm.pending := by
      rw [pending, hgenerations, List.filterMap_append]
      simp [pending, hnone]
    have hledger : (vm.accept userMessage).ledger = vm.ledger := by
      rw [ledger, hpending]
      rfl
    exact List.Perm.of_eq (hledger.trans hnothing.symm)
  | promptBuilt i generation mood currentTime hi hphase =>
    have hawait := ledger_await vm (.awaitGenerate (vm.prompt generation mood currentTime) []) hi
      (by simp [hphase]) (by simp)
    exact hawait.trans (List.Perm.of_eq hnothing.symm)
  | streamed i token generation prompt streamed hi hphase =>
    have hawait := ledger_await { vm with currentResponse := vm.currentResponse ++ token }
      (.awaitGenerate prompt (streamed ++ token)) hi (by simp [hphase]) (by simp)
    exact hawait.trans (List.Perm.of_eq hnothing.symm)
  | replied i generation prompt streamed hi hphase himportance =>
    have hanswered : savedOf (vm.answered (.generated i (.ok ()))).toList = savedOf [] := by
      have hnot : ¬ Important generation.userMessage := by rw [Important]; omega
      simpa [answered, hi] using savedOf_concat_of_not_important hnot []
    rw [hanswered]
    exact (ledger_finish (vm.addReply generation streamed) hi (by simp [hphase])).trans
      (List.Perm.of_eq hnothing.symm)
  | repliedImportant i generation prompt streamed hi hphase himportance =>
    obtain ⟨-, -, hcontent, hscore⟩ :=
      @savesOwn_memoryOf vm generation himportance (vm.memoryOf generation) rfl
    have hanswered : savedOf (vm.answered (.generated i (.ok ()))).toList =
        [((vm.memoryOf generation).content, (vm.memoryOf generation).importanceScore)] := by
      have hnil : savedOf [] = [] := rfl
      rw [hcontent, hscore]
      simpa [answered, hi, hnil] using savedOf_concat_of_important himportance []
    have hawait := pending_await { vm.addReply generation streamed with
      personalityManager := (vm.personalityManager.getCurrentMood vm.now).2 }
      (.awaitSave (vm.memoryOf generation)) hi
    have hpending := pending_eq vm hi
    rw [pendingRow_eq_none (by simp [hphase])] at hpending
    rw [hanswered, ledger, ledger, List.append_assoc]
    refine List.Perm.append_left _ (hawait.trans (List.perm_append_comm.trans ?_))
    exact hpending.symm.append_right _
  | saved i generation memory hi hphase =>
    have hid := hfresh generation (List.mem_of_getElem? hi) memory hphase
    have hrow : pendingRow generation = some (memory.content, memory.importanceScore) := by
      rw [pendingRow, hphase]
    have hpending := pending_eq vm hi
    rw [hrow] at hpending
    refine List.Perm.trans ?_ (List.Perm.of_eq hnothing.symm)
    refine List.Perm.trans ?_ (hpending.symm.append_left _)
    rw [← List.append_assoc, Option.toList_some, ← contents_saveMemory hid]
    exact List.Perm.refl _
  | failed i event generation hi hresumes => exact ledger_of_throwable hi hresumes hsaves
  | died i event generation hi hresumes => exact ledger_of_throwable hi hresumes hsaves
  | loaded event loader effect hstep =>
    cases effect <;> exact List.Perm.of_eq hnothing.symm
  | _ => exact List.Perm.of_eq hnothing.symm

/-! ### Runs -/

/-- The messages whose generations succeed in a run. -/
def answers (s : ChatViewModel) (es : List Event) : List Text := machine.outputs answered s es

theorem savedOf_append (xs ys : List Text) : savedOf (xs ++ ys) = savedOf xs ++ savedOf ys := by
  simp [savedOf]

/-- **A run adds to the ledger what the view model saves of the messages that it answers.** -/
theorem balance_of_run (hfresh : FreshSaves s) (hsaves : ∀ event ∈ es, SavesSucceed event)
    (hrun : machine.run s es = some vm) : vm.ledger.Perm (s.ledger ++ savedOf (answers s es)) := by
  induction es generalizing s with
  | nil =>
    cases hrun
    exact List.Perm.of_eq (List.append_nil _).symm
  | cons event es ih =>
    obtain ⟨t, hstep, hrest⟩ := (Machine.run_cons_eq_some machine).mp hrun
    obtain ⟨hsave, hsaves⟩ := List.forall_mem_cons.mp hsaves
    have htransition := transition_of_step hstep
    have hhead := balance_step htransition hsave hfresh
    have htail := ih (freshSaves_step s event t htransition hfresh) hsaves hrest
    rw [answers, Machine.outputs_cons_of_step hstep, savedOf_append, ← List.append_assoc]
    exact htail.trans (hhead.append_right _)

/-- The row of a message with its score. -/
def rowOf (message : Text) : Text × Int :=
  (utf16 "User said: " ++ message, calculateImportance message)

theorem rowOf_injective : Function.Injective rowOf := fun _ _ h =>
  List.append_cancel_left (congrArg Prod.fst h)

/-- The second policy, as a test. -/
def policy (message : Text) : Bool :=
  MemoryManager.shouldSaveToLongTerm message (calculateImportance message)

/-- Two selections from a list have the same elements exactly when the tests agree on the list. -/
theorem filter_perm_filter_iff {α : Type*} [DecidableEq α] {p q : α → Bool} {l : List α} :
    (l.filter p).Perm (l.filter q) ↔ ∀ x ∈ l, p x = q x := by
  constructor
  · intro h x hx
    rw [Bool.eq_iff_iff]
    have hmem := h.mem_iff (a := x)
    rw [List.mem_filter, List.mem_filter] at hmem
    exact ⟨fun hp => (hmem.mp ⟨hx, hp⟩).2, fun hq => (hmem.mpr ⟨hx, hq⟩).2⟩
  · exact fun h => List.Perm.of_eq (List.filter_congr h)

/--
**The table follows the policy of the memory manager exactly when both policies agree on every
message that is answered.**

The run starts with no generation, no save fails in it, and at its end no save is under way. Any
number of generations may run at once, and fail before they have a reply.
-/
theorem storedByPolicy_iff (hs : s.generations = []) (hsaves : ∀ event ∈ es, SavesSucceed event)
    (hrun : machine.run s es = some vm) (hdone : vm.pending = []) :
    vm.database.contents.Perm
        (s.database.contents ++ ((answers s es).filter policy).map rowOf) ↔
      ∀ message ∈ answers s es, OnePolicy message := by
  have hfresh : FreshSaves s := by simp [FreshSaves, hs]
  have hbalance := balance_of_run hfresh hsaves hrun
  have hstart : s.ledger = s.database.contents := by simp [ledger, pending, hs]
  have hend : vm.ledger = vm.database.contents := by simp [ledger, hdone]
  rw [hstart, hend] at hbalance
  have hsaved : savedOf (answers s es) = ((answers s es).filter (Important ·)).map rowOf := rfl
  rw [hsaved] at hbalance
  have hselected : vm.database.contents.Perm
        (s.database.contents ++ ((answers s es).filter policy).map rowOf) ↔
      (s.database.contents ++ ((answers s es).filter (Important ·)).map rowOf).Perm
        (s.database.contents ++ ((answers s es).filter policy).map rowOf) :=
    ⟨hbalance.symm.trans, hbalance.trans⟩
  rw [hselected, List.perm_append_left_iff, List.map_perm_map_iff rowOf_injective,
    filter_perm_filter_iff]
  refine forall₂_congr fun message _ => ?_
  rw [← onePolicy_iff, Bool.eq_iff_iff, decide_eq_true_eq]
  rfl

/-! ### Two messages -/

theorem storedByPolicy_iff_confession :
    ∃ vm, machine.run phone confession = some vm ∧
      vm.database.contents.Perm
        (phone.database.contents ++ ((answers phone confession).filter policy).map rowOf) := by
  have hview : (machine.run phone confession).map (·.pending) = some [] := by decide +kernel
  obtain ⟨vm, hrun, hdone⟩ := Option.map_eq_some_iff.mp hview
  have hanswers : answers phone confession = [utf16 "I love you"] := by decide +kernel
  have hsaves : ∀ event ∈ confession, SavesSucceed event := by
    simp [confession, boot, exchange, SavesSucceed]
  refine ⟨vm, hrun, (storedByPolicy_iff rfl hsaves hrun hdone).mpr ?_⟩
  rw [hanswers, List.forall_mem_singleton, ← onePolicy_iff]
  decide +kernel

/-- An answered message with a personal phrase and no keyword. -/
def tired : List Event := boot ++ exchange (utf16 "I am tired") (utf16 "oh")

theorem tired_not_stored :
    ¬ ∀ (s : ChatViewModel) (es : List Event) (vm : ChatViewModel), s.generations = [] →
      (∀ event ∈ es, SavesSucceed event) → machine.run s es = some vm → vm.pending = [] →
      vm.database.contents.Perm
        (s.database.contents ++ ((answers s es).filter policy).map rowOf) := by
  intro h
  have hview : (machine.run phone tired).map (fun vm => (vm.pending, vm.database.contents)) =
      some ([], []) := by decide +kernel
  obtain ⟨vm, hrun, hend⟩ := Option.map_eq_some_iff.mp hview
  rw [Prod.mk.injEq] at hend
  have hsaves : ∀ event ∈ tired, SavesSucceed event := by
    simp [tired, boot, exchange, SavesSucceed]
  have hlength := (h phone tired vm rfl hsaves hrun hend.1).length_eq
  have hpolicy : (phone.database.contents ++
      ((answers phone tired).filter policy).map rowOf).length = 1 := by decide +kernel
  rw [hpolicy, hend.2] at hlength
  cases hlength

end ChatViewModel

end Kaede
