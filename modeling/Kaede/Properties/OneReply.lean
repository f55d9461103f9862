import Kaede.Properties.Generations

/-!
# One message, one reply

Which messages and turns belong to a call of `sendMessage` is read off their numbers.
`SameCall vm next call` says that nothing was added for a call from `vm` to `next`. With it, a step
has to be looked at only for the one call that it serves.
-/

namespace Kaede

open Infra

namespace ChatViewModel

variable {vm next s : ChatViewModel} {event : Event} {es : List Event} {call : Nat}

/-! ## The messages of a call -/

/-- Everything that a call has added to the message list, in order. -/
def ofCall (vm : ChatViewModel) (call : Nat) : List ChatMessage :=
  vm.trace.published.filter (·.source.call? = some call)

/-- The call added the text that was sent and one message of Kaede. A turn of Kaede was recorded
for it only with the text of that message. -/
def OneReply (vm : ChatViewModel) (call : Nat) : Prop :=
  ∃ userMessage kaedeMessage : ChatMessage,
    vm.ofCall call = [userMessage, kaedeMessage] ∧
      userMessage.isUser = true ∧ vm.trace.sent[call]? = some userMessage.content ∧
      kaedeMessage.isUser = false ∧
      ∀ utterance ∈ vm.trace.said, utterance.call = call → utterance.speaker = .kaede →
        utterance.text = kaedeMessage.content

/-- The call has added the text that was sent, and nothing of Kaede yet. -/
def Asked (vm : ChatViewModel) (call : Nat) : Prop :=
  ∃ userMessage : ChatMessage,
    vm.ofCall call = [userMessage] ∧
      userMessage.isUser = true ∧ vm.trace.sent[call]? = some userMessage.content ∧
      ∀ utterance ∈ vm.trace.said, utterance.call = call → utterance.speaker ≠ .kaede

/-- Nothing is added for this call. -/
structure SameCall (vm next : ChatViewModel) (call : Nat) : Prop where
  messages : next.ofCall call = vm.ofCall call
  sent : next.trace.sent[call]? = vm.trace.sent[call]?
  said : ∀ utterance ∈ next.trace.said, utterance.call = call → utterance.speaker = .kaede →
    utterance ∈ vm.trace.said

theorem sameCall_of_trace (h : next.trace = vm.trace) : SameCall vm next call := by
  refine ⟨by rw [ofCall, ofCall, h], by rw [h], fun u hu _ _ => ?_⟩
  rw [h] at hu
  exact hu

theorem SameCall.trans {last : ChatViewModel} (h : SameCall vm next call)
    (h' : SameCall next last call) : SameCall vm last call := by
  refine ⟨h'.messages.trans h.messages, h'.sent.trans h.sent, fun u hu hcall hspeaker => ?_⟩
  exact h.said u (h'.said u hu hcall hspeaker) hcall hspeaker

theorem ofCall_addMessage {source : Source} (h : source.call? = some call) (content : Text)
    (isUser : Bool) :
    (vm.addMessage content isUser source).ofCall call =
      vm.ofCall call ++ [⟨content, isUser, vm.now, source⟩] := by
  show (vm.trace.published ++ [_]).filter _ = _
  rw [List.filter_append, List.filter_cons_of_pos (by exact decide_eq_true h)]
  rfl

theorem sameCall_addMessage {content : Text} {isUser : Bool} {source : Source}
    (h : source.call? ≠ some call) : SameCall vm (vm.addMessage content isUser source) call := by
  refine ⟨?_, rfl, fun u hu _ _ => hu⟩
  show (vm.trace.published ++ [_]).filter _ = _
  rw [List.filter_append, List.filter_cons_of_neg (by simpa using h), List.filter_nil,
    List.append_nil]
  rfl

theorem sameCall_addToBuffer {utterance : Utterance} {message : Text}
    (h : utterance.call = call → utterance.speaker ≠ .kaede) :
    SameCall vm (vm.addToBuffer utterance message) call := by
  refine ⟨rfl, rfl, fun u hu hcall hspeaker => ?_⟩
  rcases List.mem_append.mp hu with hu | hu
  · exact hu
  · rw [List.mem_singleton] at hu
    rw [hu] at hcall hspeaker
    exact absurd hspeaker (h hcall)

theorem OneReply.same (h : OneReply vm call) (hsame : SameCall vm next call) :
    OneReply next call := by
  obtain ⟨userMessage, kaedeMessage, hof, huser, hsent, hkaede, hsaid⟩ := h
  refine ⟨userMessage, kaedeMessage, hsame.messages.trans hof, huser, hsame.sent.trans hsent,
    hkaede, fun u hu hcall hspeaker => ?_⟩
  exact hsaid u (hsame.said u hu hcall hspeaker) hcall hspeaker

theorem Asked.same (h : Asked vm call) (hsame : SameCall vm next call) : Asked next call := by
  obtain ⟨userMessage, hof, huser, hsent, hsaid⟩ := h
  refine ⟨userMessage, hsame.messages.trans hof, huser, hsame.sent.trans hsent,
    fun u hu hcall hspeaker => ?_⟩
  exact hsaid u (hsame.said u hu hcall hspeaker) hcall hspeaker

/-! ## What the steps of a generation add -/

/-- An accepted message is asked, and nothing else happens to the other calls. -/
theorem asked_accept (hn : Numbered vm) (userMessage : Text) :
    Asked (vm.accept userMessage) vm.trace.calls := by
  have hnone : vm.ofCall vm.trace.calls = [] := by
    rw [ofCall, List.filter_eq_nil_iff]
    intro message hmessage hcall
    exact absurd (hn.published message hmessage _ (of_decide_eq_true hcall)) (lt_irrefl _)
  refine ⟨⟨userMessage, true, vm.now, .user vm.trace.calls⟩, ?_, rfl, ?_, ?_⟩
  · show (vm.addMessage userMessage true (.user vm.trace.calls)).ofCall vm.trace.calls = _
    rw [ofCall_addMessage rfl, hnone, List.nil_append]
  · show (vm.trace.sent ++ [userMessage])[vm.trace.calls]? = _
    exact List.getElem?_concat_length
  · intro utterance hu hcall hspeaker
    rcases List.mem_append.mp hu with hu | hu
    · exact absurd (hn.said utterance hu) (by rw [hcall]; exact lt_irrefl _)
    · rw [List.mem_singleton] at hu
      rw [hu] at hspeaker
      cases hspeaker

theorem sameCall_accept (userMessage : Text) (h : call < vm.trace.calls) :
    SameCall vm (vm.accept userMessage) call := by
  have hmessage : SameCall vm (vm.addMessage userMessage true (.user vm.trace.calls)) call :=
    sameCall_addMessage (fun hcall => absurd (Option.some.inj hcall) (by omega))
  have hturn : SameCall (vm.addMessage userMessage true (.user vm.trace.calls))
      ((vm.addMessage userMessage true (.user vm.trace.calls)).addToBuffer
        ⟨.user, userMessage, vm.trace.calls⟩ (utf16 "User: " ++ userMessage)) call :=
    sameCall_addToBuffer (by rintro _ ⟨⟩)
  have hboth := hmessage.trans hturn
  refine ⟨hboth.messages, ?_, hboth.said⟩
  show (vm.trace.sent ++ [userMessage])[call]? = _
  exact List.getElem?_append_left h

/-- The reply answers its call. -/
theorem oneReply_addReply {generation : Generation} (h : Asked vm generation.call)
    (streamed : Text) : OneReply (vm.addReply generation streamed) generation.call := by
  obtain ⟨userMessage, hof, huser, hsent, hsaid⟩ := h
  refine ⟨userMessage, ⟨vm.currentResponse, false, vm.now, .reply generation.call streamed⟩, ?_,
    huser, hsent, rfl, ?_⟩
  · show (vm.addMessage vm.currentResponse false (.reply generation.call streamed)).ofCall
      generation.call = _
    rw [ofCall_addMessage rfl, hof]
    rfl
  · intro utterance hu hcall hspeaker
    rcases List.mem_append.mp hu with hu | hu
    · exact absurd hspeaker (hsaid utterance hu hcall)
    · rw [List.mem_singleton] at hu
      rw [hu]

theorem sameCall_addReply {generation : Generation} {streamed : Text}
    (h : generation.call ≠ call) : SameCall vm (vm.addReply generation streamed) call := by
  have hmessage : SameCall vm
      (vm.addMessage vm.currentResponse false (.reply generation.call streamed)) call :=
    sameCall_addMessage fun hcall => h (Option.some.inj hcall)
  exact hmessage.trans (sameCall_addToBuffer fun hcall => absurd hcall h)

/-- So does the error message, as long as there is no reply. -/
theorem oneReply_fail {i : Nat} {generation : Generation} (h : Asked vm generation.call) :
    OneReply (vm.fail i generation) generation.call := by
  obtain ⟨userMessage, hof, huser, hsent, hsaid⟩ := h
  refine ⟨userMessage, ⟨utf16 "Kaede had a thinking moment... Try again? 💜", false, vm.now,
    .failure generation.call⟩, ?_, huser, hsent, rfl, ?_⟩
  · show (vm.addMessage _ false (.failure generation.call)).ofCall generation.call = _
    rw [ofCall_addMessage rfl, hof]
    rfl
  · intro utterance hu hcall hspeaker
    exact absurd hspeaker (hsaid utterance hu hcall)

theorem sameCall_fail {i : Nat} {generation : Generation} (h : generation.call ≠ call) :
    SameCall vm (vm.fail i generation) call := by
  have hmessage : SameCall vm (vm.addMessage (utf16 "Kaede had a thinking moment... Try again? 💜")
      false (.failure generation.call)) call :=
    sameCall_addMessage fun hcall => h (Option.some.inj hcall)
  exact hmessage.trans (sameCall_of_trace rfl)

/-! ## One call after the other -/

/-- `saveMemory` does not throw an `Exception`, and the two calls before it throw no `Error`. -/
def AnswersOnce : Event → Prop
  | .contextMemories _ outcome | .generated _ outcome => outcome ≠ .error .error
  | .memorySaved _ outcome => outcome ≠ .error .exception
  | _ => True

/-- How far the call of a running generation is. It is answered when it saves the memory. -/
def Progress (vm : ChatViewModel) (generation : Generation) : Prop :=
  match generation.phase with
  | .awaitSave _ => OneReply vm generation.call
  | _ => Asked vm generation.call

/-- All calls before the running one are answered. Without a running one, all are. -/
def Answering (vm : ChatViewModel) : Prop :=
  (vm.generations = [] ∧ vm.isTyping = false ∧ vm.currentResponse = [] ∧
      ∀ call < vm.trace.calls, OneReply vm call) ∨
    ∃ generation, vm.generations = [generation] ∧ generation.call + 1 = vm.trace.calls ∧
      (∀ call < generation.call, OneReply vm call) ∧ Progress vm generation

/-- The generation that is found at a place is the only one. -/
theorem Answering.of_getElem? (h : Answering vm) {i : Nat} {generation : Generation}
    (hi : vm.generations[i]? = some generation) :
    i = 0 ∧ vm.generations = [generation] ∧ generation.call + 1 = vm.trace.calls ∧
      (∀ call < generation.call, OneReply vm call) ∧ Progress vm generation := by
  rcases h with ⟨hnone, _⟩ | ⟨g, hgenerations, hcall, hbefore, hprogress⟩
  · rw [hnone] at hi
    cases hi
  · rw [hgenerations] at hi
    obtain ⟨hzero, rfl⟩ := eq_of_getElem?_singleton hi
    exact ⟨hzero, hgenerations, hcall, hbefore, hprogress⟩

/-- A step that adds nothing for any call and touches no generation. -/
theorem Answering.quiet (h : Answering vm) (hsame : ∀ call, SameCall vm next call)
    (hcalls : next.trace.calls = vm.trace.calls) (hgenerations : next.generations = vm.generations)
    (htyping : next.isTyping = vm.isTyping) (hresponse : next.currentResponse = vm.currentResponse) :
    Answering next := by
  rcases h with ⟨hnone, ht, hr, hall⟩ | ⟨g, hg, hcall, hbefore, hprogress⟩
  · refine Or.inl ⟨hgenerations.trans hnone, htyping.trans ht, hresponse.trans hr, ?_⟩
    intro call hlt
    rw [hcalls] at hlt
    exact (hall call hlt).same (hsame call)
  · refine Or.inr ⟨g, hgenerations.trans hg, hcall.trans hcalls.symm, ?_, ?_⟩
    · exact fun call hlt => (hbefore call hlt).same (hsame call)
    · unfold Progress at *
      split at hprogress
      · exact hprogress.same (hsame g.call)
      · exact hprogress.same (hsame g.call)

/-- The only generation moves on to another phase. -/
theorem Answering.await (h : Answering vm) {i : Nat} {generation : Generation} {phase : Phase}
    (hi : vm.generations[i]? = some generation)
    (hsame : ∀ call < generation.call, SameCall vm next call)
    (hcalls : next.trace.calls = vm.trace.calls)
    (hgenerations : next.generations = vm.generations.set i { generation with phase := phase })
    (hprogress : Progress next { generation with phase := phase }) : Answering next := by
  obtain ⟨rfl, hsolo, hcall, hbefore, _⟩ := h.of_getElem? hi
  refine Or.inr ⟨{ generation with phase := phase }, by rw [hgenerations, hsolo]; rfl,
    hcall.trans hcalls.symm, ?_, hprogress⟩
  exact fun call hlt => (hbefore call hlt).same (hsame call hlt)

/-- The only generation ends, answered. -/
theorem Answering.finish (h : Answering vm) {i : Nat} {generation : Generation}
    (hi : vm.generations[i]? = some generation)
    (hsame : ∀ call < generation.call, SameCall vm next call)
    (hcalls : next.trace.calls = vm.trace.calls)
    (hgenerations : next.generations = vm.generations.eraseIdx i)
    (htyping : next.isTyping = false) (hresponse : next.currentResponse = [])
    (hreply : OneReply next generation.call) : Answering next := by
  obtain ⟨rfl, hsolo, hcall, hbefore, _⟩ := h.of_getElem? hi
  refine Or.inl ⟨by rw [hgenerations, hsolo]; rfl, htyping, hresponse, ?_⟩
  intro call hlt
  rcases Nat.lt_or_ge call generation.call with hlt' | hge
  · exact (hbefore call hlt').same (hsame call hlt')
  · have heq : call = generation.call := by omega
    rw [heq]
    exact hreply

/-- While memories are fetched or a reply is generated, the call is only asked. -/
theorem Progress.asked {generation : Generation} (h : Progress vm generation)
    (hphase : ∀ memory, generation.phase ≠ .awaitSave memory) : Asked vm generation.call := by
  unfold Progress at h
  split at h
  · next memory hsave => exact absurd hsave (hphase memory)
  · exact h

theorem answering_step (vm : ChatViewModel) (event : Event) (next : ChatViewModel)
    (h : Transition vm event next) (hone : OneAtATime vm event) (hanswers : AnswersOnce event)
    (hn : Numbered vm) (ha : Answering vm) : Answering next := by
  cases h with
  | tick ms => exact ha.quiet (fun _ => sameCall_of_trace rfl) rfl rfl rfl rfl
  | refused userMessage hready =>
    exact ha.quiet (fun _ => sameCall_addMessage (by rintro ⟨⟩)) rfl rfl rfl rfl
  | accepted userMessage hready =>
    have hnone := hone hready
    obtain ⟨generation, hgenerations, _, hcall, _, mood, hphase⟩ :=
      accept_generations vm userMessage
    rw [hnone, List.nil_append] at hgenerations
    rcases ha with ⟨_, _, _, hall⟩ | ⟨g, hg, _⟩
    · refine Or.inr ⟨generation, hgenerations, by rw [hcall, accept_calls], ?_, ?_⟩
      · intro call hlt
        rw [hcall] at hlt
        exact (hall call hlt).same (sameCall_accept userMessage hlt)
      · unfold Progress
        rw [hphase, hcall]
        exact asked_accept hn userMessage
    · rw [hnone] at hg
      cases hg
  | promptBuilt i generation mood currentTime hi hphase =>
    obtain ⟨_, _, _, _, hprogress⟩ := ha.of_getElem? hi
    have hasked := hprogress.asked (by rw [hphase]; rintro _ ⟨⟩)
    exact ha.await hi (fun _ _ => sameCall_of_trace rfl) rfl rfl (hasked.same (sameCall_of_trace rfl))
  | streamed i token generation prompt streamed hi hphase =>
    obtain ⟨_, _, _, _, hprogress⟩ := ha.of_getElem? hi
    have hasked := hprogress.asked (by rw [hphase]; rintro _ ⟨⟩)
    exact ha.await hi (fun _ _ => sameCall_of_trace rfl) rfl rfl (hasked.same (sameCall_of_trace rfl))
  | replied i generation prompt streamed hi hphase himportance =>
    obtain ⟨_, _, _, _, hprogress⟩ := ha.of_getElem? hi
    have hasked := hprogress.asked (by rw [hphase]; rintro _ ⟨⟩)
    have hreply := oneReply_addReply hasked streamed
    refine ha.finish hi (fun call hlt => ?_) rfl rfl rfl rfl (hreply.same (sameCall_of_trace rfl))
    exact (sameCall_addReply (by omega)).trans (sameCall_of_trace rfl)
  | repliedImportant i generation prompt streamed hi hphase himportance =>
    obtain ⟨_, _, _, _, hprogress⟩ := ha.of_getElem? hi
    have hasked := hprogress.asked (by rw [hphase]; rintro _ ⟨⟩)
    have hreply := oneReply_addReply hasked streamed
    refine ha.await hi (fun call hlt => ?_) rfl rfl (hreply.same (sameCall_of_trace rfl))
    exact (sameCall_addReply (by omega)).trans (sameCall_of_trace rfl)
  | saved i generation memory hi hphase =>
    obtain ⟨_, _, _, _, hprogress⟩ := ha.of_getElem? hi
    rw [Progress, hphase] at hprogress
    exact ha.finish hi (fun _ _ => sameCall_of_trace rfl) rfl rfl rfl rfl
      (OneReply.same hprogress (sameCall_of_trace rfl))
  | failed i event generation hi hresumes =>
    obtain ⟨_, _, _, _, hprogress⟩ := ha.of_getElem? hi
    have hasked : Asked vm generation.call := by
      refine hprogress.asked fun memory hphase => ?_
      rw [hphase] at hresumes
      cases hresumes
      exact hanswers rfl
    exact ha.finish hi (fun call hlt => sameCall_fail (by omega)) rfl rfl rfl rfl
      (oneReply_fail hasked)
  | died i event generation hi hresumes =>
    obtain ⟨_, _, _, _, hprogress⟩ := ha.of_getElem? hi
    have hreply : OneReply vm generation.call := by
      unfold Progress at hprogress
      generalize generation.phase = phase at hresumes hprogress
      cases hresumes with
      | memories mood currentTime => exact absurd rfl hanswers
      | generate prompt streamed => exact absurd rfl hanswers
      | save memory => exact hprogress
    exact ha.finish hi (fun _ _ => sameCall_of_trace rfl) rfl rfl rfl rfl
      (hreply.same (sameCall_of_trace rfl))
  | cleared =>
    refine ha.quiet (fun call => ?_) rfl rfl rfl rfl
    have hclear : SameCall vm { vm with
        messages := []
        memoryManager := vm.memoryManager.clearBuffer vm.now
        trace := { vm.trace with sinceClear := [] } } call := ⟨rfl, rfl, fun _ hu _ _ => hu⟩
    exact hclear.trans (sameCall_addMessage (by rintro ⟨⟩))
  | loaded event loader effect hstep =>
    have hloader : ∀ call, SameCall vm { vm with loader := loader } call :=
      fun _ => sameCall_of_trace rfl
    cases effect with
    | silent => exact ha.quiet hloader rfl rfl rfl rfl
    | ready load =>
      exact ha.quiet (fun call => (hloader call).trans (sameCall_addMessage (by rintro ⟨⟩))) rfl
        rfl rfl rfl
    | crash => exact ha.quiet (fun _ => sameCall_of_trace rfl) rfl rfl rfl rfl

/-! ## When a call is not answered once -/

/-- Messages are never unpublished. -/
theorem ofCall_length_le (hrun : machine.run s es = some vm) (call : Nat) :
    (s.ofCall call).length ≤ (vm.ofCall call).length := by
  refine invariant_of_run (I := fun vm => (s.ofCall call).length ≤ (vm.ofCall call).length)
    (fun vm event next h hle => ?_) (le_refl _) hrun
  rcases published_cases h with hsame | ⟨message, hnew, _⟩
  · rw [ofCall, ofCall, hsame]
    exact hle
  · refine hle.trans ?_
    rw [ofCall, ofCall, hnew, List.filter_append, List.length_append]
    exact Nat.le_add_right _ _

theorem OneReply.length_eq (h : OneReply vm call) : (vm.ofCall call).length = 2 := by
  obtain ⟨userMessage, kaedeMessage, hof, _⟩ := h
  rw [hof]
  rfl

theorem Asked.length_eq (h : Asked vm call) : (vm.ofCall call).length = 1 := by
  obtain ⟨userMessage, hof, _⟩ := h
  rw [hof]
  rfl

/-- A call with messages was made. -/
theorem lt_calls_of_ofCall (hn : Numbered vm) (h : 0 < (vm.ofCall call).length) :
    call < vm.trace.calls := by
  obtain ⟨message, hmessage⟩ := List.exists_mem_of_length_pos h
  obtain ⟨hpublished, hcall⟩ := List.mem_filter.mp hmessage
  exact hn.published message hpublished call (of_decide_eq_true hcall)

/-- A crashed process takes no further step. -/
theorem run_eq_self_of_crashed (hc : vm.crashed = true) (hrun : machine.run vm es = some next) :
    next = vm := by
  cases es with
  | nil =>
    rw [Machine.run_nil, Option.some.injEq] at hrun
    exact hrun.symm
  | cons event es =>
    obtain ⟨t, hstep, _⟩ := (Machine.run_cons_eq_some machine).mp hrun
    rw [not_crashed_of_step hstep] at hc
    cases hc

/-- After a step that answers too little or too much, some call never has its one reply. -/
theorem exists_not_oneReply (ha : Answering vm) (h : Transition vm event next)
    (hn : Numbered s) (hviolated : ¬ AnswersOnce event) (hrun : machine.run next es = some s) :
    ∃ call < s.trace.calls, ¬ OneReply s call := by
  cases h with
  | failed i event generation hi hresumes =>
    obtain ⟨_, _, _, _, hprogress⟩ := ha.of_getElem? hi
    have hreply : OneReply vm generation.call := by
      unfold Progress at hprogress
      generalize generation.phase = phase at hresumes hprogress
      cases hresumes with
      | memories mood currentTime => exact absurd (by rintro ⟨⟩) hviolated
      | generate prompt streamed => exact absurd (by rintro ⟨⟩) hviolated
      | save memory => exact hprogress
    -- the error message is the third message of the call
    have hthree : ((vm.fail i generation).ofCall generation.call).length = 3 := by
      show ((vm.addMessage _ false (.failure generation.call)).ofCall generation.call).length = 3
      rw [ofCall_addMessage rfl, List.length_append, hreply.length_eq]
      rfl
    have hlater := ofCall_length_le hrun generation.call
    refine ⟨generation.call, lt_calls_of_ofCall hn (by omega), fun hone => ?_⟩
    rw [hone.length_eq, hthree] at hlater
    omega
  | died i event generation hi hresumes =>
    obtain ⟨_, _, _, _, hprogress⟩ := ha.of_getElem? hi
    have hasked : Asked vm generation.call := by
      refine hprogress.asked fun memory hphase => ?_
      rw [hphase] at hresumes
      cases hresumes
      exact hviolated (by rintro ⟨⟩)
    -- nothing comes after the crash
    have hlast := run_eq_self_of_crashed rfl hrun
    have hasked' : Asked s generation.call := by
      rw [hlast]
      exact hasked.same (sameCall_of_trace rfl)
    have hlength := hasked'.length_eq
    refine ⟨generation.call, lt_calls_of_ofCall hn (by omega), fun hone => ?_⟩
    rw [hone.length_eq] at hlength
    cases hlength
  | promptBuilt => exact absurd (by rintro ⟨⟩) hviolated
  | replied => exact absurd (by rintro ⟨⟩) hviolated
  | repliedImportant => exact absurd (by rintro ⟨⟩) hviolated
  | saved => exact absurd (by rintro ⟨⟩) hviolated
  | _ => exact absurd trivial hviolated

/--
**Each message gets exactly one reply exactly when no reply is followed by a failing save, and no
`Error` ends the process before the reply.**
-/
theorem oneReply_iff {now : Int} {database : MemoryTable} {isNativeLoaded : Bool}
    {native : NativeLayer} {storage : Storage}
    (hrun : machine.run (init now database isNativeLoaded native storage) es = some vm)
    (hone : machine.Along OneAtATime (init now database isNativeLoaded native storage) es)
    (hdone : vm.generations = []) :
    ((∀ call < vm.trace.calls, OneReply vm call) ∧ vm.isTyping = false ∧
        vm.currentResponse = []) ↔
      ∀ event ∈ es, AnswersOnce event := by
  have hinv : ∀ {xs : List Event} {t : ChatViewModel},
      machine.run (init now database isNativeLoaded native storage) xs = some t →
      machine.Along OneAtATime (init now database isNativeLoaded native storage) xs →
      machine.Along (fun _ e => AnswersOnce e) (init now database isNativeLoaded native storage)
        xs → Numbered t ∧ Answering t := by
    intro xs t hrun' hone' hanswers
    refine invariant_of_run_along (I := fun vm => Numbered vm ∧ Answering vm)
      (fun vm event next h hg hi => ⟨numbered_step vm event next h hi.1,
        answering_step vm event next h hg.1 hg.2 hi.1 hi.2⟩)
      (Machine.along_and hone' hanswers) ⟨numbered_init, Or.inl ⟨rfl, rfl, rfl, ?_⟩⟩ hrun'
    exact fun call hlt => absurd hlt (Nat.not_lt_zero _)
  rw [← Machine.along_const_iff hrun]
  constructor
  · rintro ⟨hall, _⟩
    by_contra hnot
    obtain ⟨xs, e, ys, t, rfl, ht, hanswers, hviolated⟩ := Machine.exists_first_violation hnot
    obtain ⟨t', hstep, hlast⟩ := Machine.step_of_run machine hrun ht
    obtain ⟨_, ha⟩ := hinv ht (Machine.along_append.mp hone).1 hanswers
    obtain ⟨call, hlt, hno⟩ := exists_not_oneReply ha (transition_of_step hstep)
      (numbered_of_run numbered_init hrun) hviolated hlast
    exact hno (hall call hlt)
  · intro hanswers
    rcases (hinv hrun hone hanswers).2 with ⟨_, htyping, hresponse, hall⟩ | ⟨g, hg, _⟩
    · exact ⟨hall, htyping, hresponse⟩
    · rw [hdone] at hg
      cases hg

theorem oneReply_iff_exchange :
    ∃ vm, machine.run phone (boot ++ exchange (utf16 "hi") (utf16 "yo")) = some vm ∧
      (((∀ call < vm.trace.calls, OneReply vm call) ∧ vm.isTyping = false ∧
          vm.currentResponse = []) ↔
        ∀ event ∈ boot ++ exchange (utf16 "hi") (utf16 "yo"), AnswersOnce event) := by
  have hview : (machine.run phone (boot ++ exchange (utf16 "hi") (utf16 "yo"))).map
      (·.generations) = some [] := by decide +kernel
  obtain ⟨vm, hrun, hdone⟩ := Option.map_eq_some_iff.mp hview
  have hone : machine.Along OneAtATime phone (boot ++ exchange (utf16 "hi") (utf16 "yo")) := by
    decide +kernel
  exact ⟨vm, hrun, oneReply_iff hrun hone hdone⟩

/-- A message worth remembering, whose memory cannot be saved. -/
def failingSave : List Event :=
  boot ++ exchange (utf16 "my name is Rin") (utf16 "yo") ++ [.memorySaved 0 (.error .exception)]

/-- It gets its reply and then an error message as well. -/
theorem failingSave_two_replies :
    ∃ vm, machine.run phone failingSave = some vm ∧ machine.Along OneAtATime phone failingSave ∧
      vm.generations = [] ∧
      (vm.ofCall 0).map (·.content) =
        [utf16 "my name is Rin", utf16 "yo",
          utf16 "Kaede had a thinking moment... Try again? 💜"] ∧
      ¬ OneReply vm 0 := by
  have hview : (machine.run phone failingSave).map (fun vm =>
      (vm.generations, (vm.ofCall 0).map (·.content))) =
      some ([], [utf16 "my name is Rin", utf16 "yo",
        utf16 "Kaede had a thinking moment... Try again? 💜"]) := by decide +kernel
  obtain ⟨vm, hrun, hvm⟩ := Option.map_eq_some_iff.mp hview
  rw [Prod.mk.injEq] at hvm
  refine ⟨vm, hrun, by decide +kernel, hvm.1, hvm.2, fun h => ?_⟩
  have hlength := congrArg List.length hvm.2
  rw [List.length_map, h.length_eq] at hlength
  cases hlength

end ChatViewModel

end Kaede
