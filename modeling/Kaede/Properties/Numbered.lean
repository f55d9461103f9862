import Kaede.ViewModel.Transition

/-!
# Calls are numbered in the order in which they were made

The ghost data that a call of `sendMessage` leaves behind carries its number. A new call gets a
number that nothing carries yet.
-/

namespace Kaede

open Infra

namespace ChatViewModel

variable {vm next s : ChatViewModel} {event : Event} {es : List Event}

/-- Whatever carries the number of a call carries the number of a call that was made. -/
structure Numbered (vm : ChatViewModel) : Prop where
  said : ∀ utterance ∈ vm.trace.said, utterance.call < vm.trace.calls
  sinceClear : vm.trace.sinceClear ⊆ vm.trace.said
  generations : ∀ generation ∈ vm.generations, generation.call < vm.trace.calls
  published : ∀ message ∈ vm.trace.published, ∀ call ∈ message.source.call?,
    call < vm.trace.calls

theorem numbered_init {now : Int} {database : MemoryTable} {isNativeLoaded : Bool}
    {native : NativeLayer} {storage : Storage} :
    Numbered (init now database isNativeLoaded native storage) :=
  ⟨by simp [init], by simp [init], by simp [init], by simp [init]⟩

theorem Numbered.addMessage (h : Numbered vm) (content : Text) (isUser : Bool) (source : Source)
    (hsource : ∀ call ∈ source.call?, call < vm.trace.calls) :
    Numbered (vm.addMessage content isUser source) := by
  refine ⟨h.said, h.sinceClear, h.generations, ?_⟩
  intro message hmessage
  rcases List.mem_append.mp hmessage with hmessage | hmessage
  · exact h.published message hmessage
  · rw [List.mem_singleton] at hmessage
    rw [hmessage]
    exact hsource

theorem Numbered.addToBuffer (h : Numbered vm) (utterance : Utterance) (message : Text)
    (hcall : utterance.call < vm.trace.calls) : Numbered (vm.addToBuffer utterance message) := by
  refine ⟨?_, ?_, h.generations, h.published⟩
  · intro u hu
    rcases List.mem_append.mp hu with hu | hu
    · exact h.said u hu
    · rw [List.mem_singleton] at hu
      rw [hu]
      exact hcall
  · intro u hu
    rcases List.mem_append.mp hu with hu | hu
    · exact List.mem_append_left _ (h.sinceClear hu)
    · exact List.mem_append_right _ hu

theorem Numbered.await (h : Numbered vm) {i : Nat} {generation : Generation} {phase : Phase}
    (hi : vm.generations[i]? = some generation) : Numbered (vm.await i generation phase) := by
  refine ⟨h.said, h.sinceClear, ?_, h.published⟩
  intro g hg
  rcases List.mem_or_eq_of_mem_set hg with hg | hg
  · exact h.generations g hg
  · rw [hg]
    exact h.generations generation (List.mem_of_getElem? hi)

theorem Numbered.finish (h : Numbered vm) {i : Nat} : Numbered (vm.finish i) :=
  ⟨h.said, h.sinceClear, fun g hg => h.generations g (List.mem_of_mem_eraseIdx hg), h.published⟩

/-- Counting one more call keeps the numbers. -/
theorem Numbered.mono {trace : Trace} (h : Numbered vm) (hcalls : vm.trace.calls ≤ trace.calls)
    (hsaid : trace.said = vm.trace.said) (hclear : trace.sinceClear = vm.trace.sinceClear)
    (hpublished : trace.published = vm.trace.published) : Numbered { vm with trace := trace } := by
  refine ⟨?_, ?_, ?_, ?_⟩
  · intro u hu
    exact lt_of_lt_of_le (h.said u (hsaid ▸ hu)) hcalls
  · show trace.sinceClear ⊆ trace.said
    rw [hclear, hsaid]
    exact h.sinceClear
  · intro g hg
    exact lt_of_lt_of_le (h.generations g hg) hcalls
  · intro m hm call hcall
    exact lt_of_lt_of_le (h.published m (hpublished ▸ hm) call hcall) hcalls

theorem Numbered.accept (h : Numbered vm) (userMessage : Text) :
    Numbered (vm.accept userMessage) := by
  have hlt : vm.trace.calls < (vm.accept userMessage).trace.calls := by
    rw [accept_calls]
    exact Nat.lt_succ_self _
  have hsent : Numbered { vm with
      trace := { vm.trace with sent := vm.trace.sent ++ [userMessage] } } :=
    h.mono hlt.le rfl rfl rfl
  have hmessage := hsent.addMessage userMessage true (.user vm.trace.calls)
    (by rintro call ⟨⟩; exact hlt)
  have hbuffer := hmessage.addToBuffer ⟨.user, userMessage, vm.trace.calls⟩
    (utf16 "User: " ++ userMessage) hlt
  refine ⟨hbuffer.said, hbuffer.sinceClear, ?_, hbuffer.published⟩
  intro g hg
  rcases List.mem_append.mp hg with hg | hg
  · exact hbuffer.generations g hg
  · rw [List.mem_singleton] at hg
    rw [hg]
    exact hlt

theorem Numbered.addReply (h : Numbered vm) (generation : Generation) (streamed : Text)
    (hcall : generation.call < vm.trace.calls) :
    Numbered (vm.addReply generation streamed) := by
  have hmessage := h.addMessage vm.currentResponse false (.reply generation.call streamed)
    (by rintro call ⟨⟩; exact hcall)
  exact hmessage.addToBuffer ⟨.kaede, vm.currentResponse, generation.call⟩
    (utf16 "Kaede: " ++ vm.currentResponse) hcall

theorem numbered_step (vm : ChatViewModel) (event : Event) (next : ChatViewModel)
    (h : Transition vm event next) (hn : Numbered vm) : Numbered next := by
  have hcall : ∀ {i : Nat} {generation : Generation},
      vm.generations[i]? = some generation → generation.call < vm.trace.calls :=
    fun hi => hn.generations _ (List.mem_of_getElem? hi)
  cases h with
  | tick ms => exact ⟨hn.said, hn.sinceClear, hn.generations, hn.published⟩
  | refused userMessage hready => exact hn.addMessage _ _ _ (by rintro call ⟨⟩)
  | accepted userMessage hready => exact hn.accept userMessage
  | promptBuilt i generation mood currentTime hi hphase => exact hn.await hi
  | streamed i token generation prompt streamed hi hphase =>
    have hresponse : Numbered { vm with currentResponse := vm.currentResponse ++ token } :=
      ⟨hn.said, hn.sinceClear, hn.generations, hn.published⟩
    exact hresponse.await hi
  | replied i generation prompt streamed hi hphase himportance =>
    exact (hn.addReply generation streamed (hcall hi)).finish
  | repliedImportant i generation prompt streamed hi hphase himportance =>
    have hreply := hn.addReply generation streamed (hcall hi)
    have hmood : Numbered { vm.addReply generation streamed with
        personalityManager := (vm.personalityManager.getCurrentMood vm.now).2 } :=
      ⟨hreply.said, hreply.sinceClear, hreply.generations, hreply.published⟩
    exact hmood.await hi
  | saved i generation memory hi hphase =>
    have hsave : Numbered { vm with
        database := MemoryRepository.saveMemory memory vm.database } :=
      ⟨hn.said, hn.sinceClear, hn.generations, hn.published⟩
    exact hsave.finish
  | failed i event generation hi hresumes =>
    exact (hn.addMessage _ _ _ (by rintro call ⟨⟩; exact hcall hi)).finish
  | died i event generation hi hresumes =>
    have hfinish : Numbered (vm.finish i) := hn.finish
    exact ⟨hfinish.said, hfinish.sinceClear, hfinish.generations, hfinish.published⟩
  | cleared =>
    have hclear : Numbered { vm with
        messages := []
        memoryManager := vm.memoryManager.clearBuffer vm.now
        trace := { vm.trace with sinceClear := [] } } :=
      ⟨hn.said, List.nil_subset _, hn.generations, hn.published⟩
    exact hclear.addMessage _ _ _ (by rintro call ⟨⟩)
  | loaded event loader effect hstep =>
    have hloader : Numbered { vm with loader := loader } :=
      ⟨hn.said, hn.sinceClear, hn.generations, hn.published⟩
    cases effect with
    | silent => exact hloader
    | ready load => exact hloader.addMessage _ _ _ (by rintro call ⟨⟩)
    | crash => exact ⟨hn.said, hn.sinceClear, hn.generations, hn.published⟩

theorem numbered_of_run (hs : Numbered s) (hrun : machine.run s es = some vm) : Numbered vm :=
  invariant_of_run numbered_step hs hrun

/-! ## One message at a time -/

/-- A message that finds the model ready finds no generation running. -/
def OneAtATime (vm : ChatViewModel) : Event → Prop
  | .sendMessage _ => vm.loader.modelState.isReady = true → vm.generations = []
  | _ => True

instance (vm : ChatViewModel) : (event : Event) → Decidable (OneAtATime vm event)
  | .sendMessage _ =>
    inferInstanceAs (Decidable (vm.loader.modelState.isReady = true → vm.generations = []))
  | .tick _ | .contextMemories _ _ | .onToken _ _ | .generated _ _ | .memorySaved _ _ | .clearChat
  | .load _ => .isTrue trivial

/-- The only generation of a list. -/
theorem eq_of_getElem?_singleton {α : Type*} {a b : α} {i : Nat} (h : [a][i]? = some b) :
    i = 0 ∧ b = a := by
  cases i with
  | zero => exact ⟨rfl, (Option.some.inj h).symm⟩
  | succ i => cases h

end ChatViewModel

end Kaede
