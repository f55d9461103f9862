import Kaede.Properties.Numbered

/-!
# Clearing the chat while an answer is on its way

`clearChat` empties the message list and the buffer. The generations that are running do not learn
of it. An error message that answers a call counts as a reply here.

`forgets_iff` — the calls made before a clear stay out of both stores forever exactly when no
generation was running.
-/

namespace Kaede

open Infra

namespace ChatViewModel

variable {vm next s : ChatViewModel} {event : Event} {es : List Event} {n : Nat}

/-! ## Forgetting the first calls -/

/-- Neither the message list nor the buffer has anything of the first `n` calls. -/
structure Forgets (n : Nat) (vm : ChatViewModel) : Prop where
  messages : ∀ message ∈ vm.messages, ∀ call ∈ message.source.call?, n ≤ call
  buffer : ∀ turn ∈ vm.memoryManager.conversationBuffer, n ≤ turn.tag.call

/-- The first `n` calls are over and forgotten. -/
structure Over (n : Nat) (vm : ChatViewModel) : Prop where
  forgets : Forgets n vm
  calls : n ≤ vm.trace.calls
  generations : ∀ generation ∈ vm.generations, n ≤ generation.call

theorem Over.addMessage (h : Over n vm) {source : Source} (hsource : ∀ call ∈ source.call?, n ≤ call)
    (content : Text) (isUser : Bool) : Over n (vm.addMessage content isUser source) := by
  refine ⟨⟨?_, h.forgets.buffer⟩, h.calls, h.generations⟩
  intro message hmessage
  rcases List.mem_append.mp hmessage with hmessage | hmessage
  · exact h.forgets.messages message hmessage
  · rw [List.mem_singleton] at hmessage
    rw [hmessage]
    exact hsource

theorem Over.addToBuffer (h : Over n vm) {utterance : Utterance} (hcall : n ≤ utterance.call)
    (message : Text) : Over n (vm.addToBuffer utterance message) := by
  refine ⟨⟨h.forgets.messages, ?_⟩, h.calls, h.generations⟩
  intro turn hturn
  rcases mem_pushBounded hturn with hturn | hturn
  · exact h.forgets.buffer turn hturn
  · rw [hturn]
    exact hcall

theorem Over.await (h : Over n vm) {i : Nat} {generation : Generation}
    (hi : vm.generations[i]? = some generation) (phase : Phase) :
    Over n (vm.await i generation phase) := by
  refine ⟨⟨h.forgets.messages, h.forgets.buffer⟩, h.calls, ?_⟩
  intro g hg
  rcases List.mem_or_eq_of_mem_set hg with hg | hg
  · exact h.generations g hg
  · rw [hg]
    exact h.generations generation (List.mem_of_getElem? hi)

theorem Over.finish (h : Over n vm) (i : Nat) : Over n (vm.finish i) :=
  ⟨⟨h.forgets.messages, h.forgets.buffer⟩, h.calls,
    fun g hg => h.generations g (List.mem_of_mem_eraseIdx hg)⟩

theorem Over.addReply (h : Over n vm) {generation : Generation} (hcall : n ≤ generation.call)
    (streamed : Text) : Over n (vm.addReply generation streamed) := by
  have hmessage : Over n
      (vm.addMessage vm.currentResponse false (.reply generation.call streamed)) :=
    h.addMessage (by rintro call ⟨⟩; exact hcall) _ _
  exact hmessage.addToBuffer hcall _

theorem Over.accept (h : Over n vm) (userMessage : Text) : Over n (vm.accept userMessage) := by
  have hmessage : Over n (vm.addMessage userMessage true (.user vm.trace.calls)) :=
    h.addMessage (by rintro call ⟨⟩; exact h.calls) _ _
  have hturn : Over n ((vm.addMessage userMessage true (.user vm.trace.calls)).addToBuffer
      ⟨.user, userMessage, vm.trace.calls⟩ (utf16 "User: " ++ userMessage)) :=
    hmessage.addToBuffer h.calls _
  refine ⟨⟨hturn.forgets.messages, hturn.forgets.buffer⟩, ?_, ?_⟩
  · rw [accept_calls]
    exact Nat.le_succ_of_le h.calls
  · intro g hg
    rcases List.mem_append.mp hg with hg | hg
    · exact h.generations g hg
    · rw [List.mem_singleton] at hg
      rw [hg]
      exact h.calls

theorem Over.clear (h : Over n vm) : Over n vm.clearChat := by
  have hempty : Over n { vm with
      messages := []
      memoryManager := vm.memoryManager.clearBuffer vm.now
      trace := { vm.trace with sinceClear := [] } } :=
    ⟨⟨by simp, by simp⟩, h.calls, h.generations⟩
  exact hempty.addMessage (by rintro call ⟨⟩) _ _

theorem over_step (vm : ChatViewModel) (event : Event) (next : ChatViewModel)
    (h : Transition vm event next) (ho : Over n vm) : Over n next := by
  have hcall : ∀ {i : Nat} {generation : Generation},
      vm.generations[i]? = some generation → n ≤ generation.call :=
    fun hi => ho.generations _ (List.mem_of_getElem? hi)
  cases h with
  | tick ms => exact ⟨⟨ho.forgets.messages, ho.forgets.buffer⟩, ho.calls, ho.generations⟩
  | refused userMessage hready => exact ho.addMessage (by rintro call ⟨⟩) _ _
  | accepted userMessage hready => exact ho.accept userMessage
  | promptBuilt i generation mood currentTime hi hphase => exact ho.await hi _
  | streamed i token generation prompt streamed hi hphase =>
    have hresponse : Over n { vm with currentResponse := vm.currentResponse ++ token } :=
      ⟨⟨ho.forgets.messages, ho.forgets.buffer⟩, ho.calls, ho.generations⟩
    exact hresponse.await hi _
  | replied i generation prompt streamed hi hphase himportance =>
    exact (ho.addReply (hcall hi) streamed).finish i
  | repliedImportant i generation prompt streamed hi hphase himportance =>
    have hreply := ho.addReply (hcall hi) streamed
    have hmood : Over n { vm.addReply generation streamed with
        personalityManager := (vm.personalityManager.getCurrentMood vm.now).2 } :=
      ⟨⟨hreply.forgets.messages, hreply.forgets.buffer⟩, hreply.calls, hreply.generations⟩
    exact hmood.await hi _
  | saved i generation memory hi hphase =>
    have hsave : Over n { vm with
        database := MemoryRepository.saveMemory memory vm.database } :=
      ⟨⟨ho.forgets.messages, ho.forgets.buffer⟩, ho.calls, ho.generations⟩
    exact hsave.finish i
  | failed i event generation hi hresumes =>
    exact (ho.addMessage (by rintro call ⟨⟩; exact hcall hi) _ _).finish i
  | died i event generation hi hresumes =>
    have hfinish := ho.finish i
    exact ⟨⟨hfinish.forgets.messages, hfinish.forgets.buffer⟩, hfinish.calls,
      hfinish.generations⟩
  | cleared => exact ho.clear
  | loaded event loader effect hstep =>
    have hloader : Over n { vm with loader := loader } :=
      ⟨⟨ho.forgets.messages, ho.forgets.buffer⟩, ho.calls, ho.generations⟩
    cases effect with
    | silent => exact hloader
    | ready load => exact hloader.addMessage (by rintro call ⟨⟩) _ _
    | crash => exact ⟨⟨ho.forgets.messages, ho.forgets.buffer⟩, ho.calls, ho.generations⟩

/-! ## A generation that is still running -/

/-- Whatever a generation waits for may throw. -/
theorem exists_failing_step (hc : vm.crashed = false) {i : Nat} {generation : Generation}
    (hi : vm.generations[i]? = some generation) :
    ∃ event, vm.step event = some (vm.fail i generation) := by
  have hrun : ¬ vm.crashed = true := by
    rw [hc]
    exact Bool.false_ne_true
  cases hphase : generation.phase with
  | awaitMemories mood currentTime =>
    refine ⟨.contextMemories i (.error .exception), ?_⟩
    rw [step, if_neg hrun]
    simp only [hi, Option.bind_some, hphase]
    rfl
  | awaitGenerate prompt streamed =>
    refine ⟨.generated i (.error .exception), ?_⟩
    rw [step, if_neg hrun]
    simp only [hi, Option.bind_some, hphase]
    rfl
  | awaitSave memory =>
    refine ⟨.memorySaved i (.error .exception), ?_⟩
    rw [step, if_neg hrun]
    simp only [hi, Option.bind_some, hphase]
    rfl

/-- **What was said before a clear never comes back exactly when nothing was being answered.** -/
theorem forgets_iff {now : Int} {database : MemoryTable} {isNativeLoaded : Bool}
    {native : NativeLayer} {storage : Storage} {cleared : ChatViewModel}
    (hrun : machine.run (init now database isNativeLoaded native storage) es = some vm)
    (hclear : machine.step vm .clearChat = some cleared) :
    (∀ post last, machine.run cleared post = some last → Forgets vm.trace.calls last) ↔
      vm.generations = [] := by
  have hn : Numbered vm := numbered_of_run numbered_init hrun
  obtain ⟨hc, rfl⟩ := clearChat_of_step hclear
  constructor
  · intro hforgets
    by_contra hsome
    obtain ⟨generation, rest, hgenerations⟩ := List.exists_cons_of_ne_nil hsome
    have hi : vm.clearChat.generations[0]? = some generation := by
      show vm.generations[0]? = some generation
      rw [hgenerations]
      rfl
    have hrunning : vm.clearChat.crashed = false := hc
    obtain ⟨event, hstep⟩ := exists_failing_step hrunning hi
    have hlast := hforgets [event] _ (by rw [Machine.run_cons_of_step machine hstep]; rfl)
    -- its error message is in the list again
    have hle := hlast.messages
      ⟨utf16 "Kaede had a thinking moment... Try again? 💜", false, vm.now,
        .failure generation.call⟩
      (List.mem_append_right _ (List.mem_singleton.mpr rfl)) generation.call rfl
    have hlt := hn.generations generation (by rw [hgenerations]; exact List.mem_cons_self)
    omega
  · intro hnone post last hpost
    have hover : Over vm.trace.calls vm.clearChat := by
      refine ⟨⟨?_, ?_⟩, le_refl _, ?_⟩
      · intro message hmessage
        rw [show vm.clearChat.messages = [_] from rfl, List.mem_singleton] at hmessage
        rw [hmessage]
        rintro call ⟨⟩
      · intro turn hturn
        cases hturn
      · intro g hg
        rw [show vm.clearChat.generations = vm.generations from rfl, hnone] at hg
        cases hg
    exact (invariant_of_run over_step hover hpost).forgets

theorem forgets_iff_exchange :
    ∃ vm cleared, machine.run phone (boot ++ exchange (utf16 "hi") (utf16 "yo")) = some vm ∧
      machine.step vm .clearChat = some cleared ∧
      ((∀ post last, machine.run cleared post = some last → Forgets vm.trace.calls last) ↔
        vm.generations = []) := by
  have hsome : (machine.run phone (boot ++ exchange (utf16 "hi") (utf16 "yo") ++
      [.clearChat])).isSome = true := by decide +kernel
  obtain ⟨cleared, hall⟩ := exists_run_of_isSome hsome
  obtain ⟨vm, hrun, hrest⟩ := (Machine.run_append_eq_some machine).mp hall
  obtain ⟨_, hclear, hnil⟩ := (Machine.run_cons_eq_some machine).mp hrest
  exact ⟨vm, _, hrun, hclear, forgets_iff hrun hclear⟩

/-- An answer that is being streamed when the chat is cleared. -/
def clearedMidway : List Event :=
  boot ++
    [.sendMessage (utf16 "hi"), .contextMemories 0 (.ok ()), .onToken 0 (utf16 "yo"), .clearChat]

/-- It arrives in the cleared chat, and in the cleared buffer. -/
theorem reply_after_clear :
    ∃ cleared last, machine.run phone clearedMidway = some cleared ∧ cleared.trace.calls = 1 ∧
      machine.run cleared [.generated 0 (.ok ())] = some last ∧
      last.messages.map (·.content) =
        [utf16 "Memory cleared! Kaede remembers nothing~ 💜", utf16 "yo"] ∧
      last.memoryManager.conversationBuffer.map (·.content) = [utf16 "Kaede: yo"] ∧
      ¬ Forgets 1 last := by
  have hview : (machine.run phone (clearedMidway ++ [.generated 0 (.ok ())])).map (fun vm =>
      (vm.trace.calls, vm.messages.map (·.content), vm.memoryManager.conversationBuffer)) =
      some (1, [utf16 "Memory cleared! Kaede remembers nothing~ 💜", utf16 "yo"],
        [⟨utf16 "Kaede: yo", true, .normal, 0, ⟨.kaede, utf16 "yo", 0⟩⟩]) := by decide +kernel
  have hcalls : (machine.run phone clearedMidway).map (·.trace.calls) = some 1 := by
    decide +kernel
  obtain ⟨last, hall, hvm⟩ := Option.map_eq_some_iff.mp hview
  obtain ⟨cleared, hrun, hrest⟩ := (Machine.run_append_eq_some machine).mp hall
  simp only [Prod.mk.injEq] at hvm
  rw [hrun] at hcalls
  refine ⟨cleared, last, hrun, Option.some.inj hcalls, hrest, hvm.2.1, ?_, fun h => ?_⟩
  · rw [hvm.2.2]
    rfl
  · have hle := h.buffer ⟨utf16 "Kaede: yo", true, .normal, 0, ⟨.kaede, utf16 "yo", 0⟩⟩
      (by rw [hvm.2.2]; exact List.mem_cons_self)
    cases hle

end ChatViewModel

end Kaede
