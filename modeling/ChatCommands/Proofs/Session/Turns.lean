import ChatCommands.Proofs.Chat.Asks
import ChatCommands.Session.Schedule

namespace ChatCommands

namespace World

variable {w after later : World}

/-- No time passes, and no wait turns out to have no end. -/
structure Still (w after : World) : Prop where
  now : after.now = w.now
  crashed : after.crashed = w.crashed

theorem Still.refl (w : World) : w.Still w := ⟨rfl, rfl⟩

theorem Still.trans (first : w.Still after) (second : after.Still later) : w.Still later :=
  ⟨second.now.trans first.now, second.crashed.trans first.crashed⟩

theorem deadline?_eq_none_iff {timeout : Nat} : w.deadline? timeout = none ↔ clockEnd ≤ w.now + timeout := by
  rw [deadline?]
  split
  · rename_i within
    exact iff_of_false (Option.some_ne_none _) (Nat.not_le_of_lt within)
  · rename_i late
    exact iff_of_true rfl (Nat.le_of_not_lt late)

theorem deadline?_eq_some {timeout due : Nat} (ends : w.deadline? timeout = some due) :
    w.now + timeout < clockEnd ∧ due = w.now + timeout := by
  rw [deadline?] at ends
  split at ends
  · rename_i within
    exact ⟨within, (Option.some.inj ends).symm⟩
  · cases ends

theorem Still.deadline?_eq (still : w.Still after) (timeout : Nat) : after.deadline? timeout = w.deadline? timeout := by
  rw [deadline?, deadline?, still.now]

/-- Nothing is wrong in a world: no call fails by a fault, and no wait has turned out to have no end. -/
structure Calm (w : World) : Prop where
  faults : w.faults = []
  intact : w.crashed = false

theorem Calm.meetFault_eq (calm : w.Calm) (name : String) : w.meetFault name = (none, w) := by
  rw [meetFault, calm.faults]
  rfl

theorem still_of_fault {name : String} {fault? : Option ChatError} (met : w.meetFault name = (fault?, after)) :
    w.Still after := by
  unfold meetFault at met
  split at met <;> cases met <;> exact ⟨rfl, rfl⟩

theorem still_of_perform {call : ChatCall} {answer : Except ChatError call.Value}
    (look : w.perform call = (answer, after)) : w.Still after := by
  cases call <;> cases look <;> exact ⟨rfl, rfl⟩

end World

/-- Holds of the answers to a wait that has found nothing. -/
def ChatCall.inVain : (call : ChatCall) → Except ChatError call.Value → Bool
  | .awaitReply _ _ _, .ok none => true
  | .awaitReaction _ _ _, .ok none => true
  | _, _ => false

/-- What a request puts off until after the turn. -/
def Request.putOff : Request → PutOff
  | deleteLater message delay => [(message, delay)]
  | _ => []

namespace World

/-- A look for what a call waits for, and the time at which the wait ends. Only the first look meets faults. -/
inductive Looks (w : World) (call : ChatCall) : (due? : Option Nat) → (due : Nat) → Except ChatError call.Value →
    World → Prop
  | first {timeout between due answer after} : between.perform call = (answer, after) →
      call.timeout? = some timeout → w.meetFault call.name = (none, between) →
      between.deadline? timeout = some due → Looks w call none due answer after
  | again {due answer after} : w.perform call = (answer, after) → call.timeout?.isSome = true →
      Looks w call (some due) due answer after

/-- The answer with which a conversation goes on in its turn, and the world after it. The end of a wait that began in an
earlier turn is `due?`. A wait that finds nothing goes on when it is over. -/
inductive Meets (w : World) : (due? : Option Nat) → (request : Request) → request.Answer → World → Prop
  | fails {call e after} : w.meetFault call.name = (some e, after) → Meets w none (.chat call) (.error e) after
  | performs {call between answer after} : call.timeout? = none → w.meetFault call.name = (none, between) →
      between.perform call = (answer, after) → Meets w none (.chat call) answer after
  | looks {due? call due answer after} : w.Looks call due? due answer after →
      (call.inVain answer = true → due ≤ after.now) → Meets w due? (.chat call) answer after
  | paused {due? n} : due?.getD (w.now + n) ≤ w.now → Meets w due? (.pause n) () w
  | charge {limiter user now} :
      Meets w none (.charge limiter user now) (w.charge limiter user now).1 (w.charge limiter user now).2
  | clock : Meets w none .clock w.clock w
  | pick {choices} : Meets w none (.pick choices) (draw choices w.dice).1 { w with dice := (draw choices w.dice).2 }
  | deleteLater {message delay} : Meets w none (.deleteLater message delay) () w
  | requestShutdown : Meets w none .requestShutdown () { w with shutdown := true }
  | note {entry} : Meets w none (.note entry) () { w with journal := w.journal ++ [entry] }

section

variable {w after : World} {call : ChatCall} {due? : Option Nat} {due : Nat}

theorem Looks.still {answer : Except ChatError call.Value} (looks : w.Looks call due? due answer after) :
    w.Still after := by
  cases looks with
  | first look _ passed _ => exact (still_of_fault passed).trans (still_of_perform look)
  | again look => exact still_of_perform look

theorem Looks.waits {answer : Except ChatError call.Value} (looks : w.Looks call due? due answer after) :
    call.timeout?.isSome = true := by
  cases looks with
  | first _ waits => exact Option.isSome_of_eq_some waits
  | again _ waits => exact waits

theorem Meets.still {request : Request} {answer : request.Answer} (meets : w.Meets due? request answer after) :
    w.Still after := by
  cases meets with
  | fails faulted => exact still_of_fault faulted
  | performs _ passed look => exact (still_of_fault passed).trans (still_of_perform look)
  | looks looks => exact looks.still
  | _ => exact ⟨rfl, rfl⟩

theorem meets_call (prompt : call.timeout? = none) : w.Meets none (.chat call) (w.call call).1 (w.call call).2 := by
  rw [World.call]
  split
  · rename_i faulted
    exact .fails faulted
  · rename_i passed
    exact .performs prompt passed rfl

end

theorem still_occur (w : World) (event : Happening) : w.Still (w.occur event) := by
  cases event with
  | delete => exact (meets_call rfl).still
  | _ => exact ⟨rfl, rfl⟩

end World

namespace Conversation

variable {β : Type}

/-- The conversation begins with a wait. -/
def Waits : Conversation β → Prop
  | ask (.chat (.awaitReply _ _ _)) _ => True
  | ask (.chat (.awaitReaction _ _ _)) _ => True
  | ask (.pause _) _ => True
  | _ => False

/-- All that a turn of a conversation can come to, when `due?` is the end of the wait that it began with. -/
inductive Advances : (due? : Option Nat) → Conversation β → World → Turn β × PutOff × World → Prop
  | done {value w} : Advances none (done value) w (.ended value, [], w)
  | ask {due? request next answer w between turn putOff after} : w.Meets due? request answer between →
      Advances none (next answer) between (turn, putOff, after) →
      Advances due? (ask request next) w (turn, request.putOff ++ putOff, after)
  | sleeps {due? call next due answer w after} : w.Looks call due? due answer after → call.inVain answer = true →
      after.now < due → Advances due? (ask (.chat call) next) w (.waits due (ask (.chat call) next), [], after)
  | pauses {due? n next due} {w : World} : due = due?.getD (w.now + n) → w.now < due →
      Advances due? (ask (.pause n) next) w (.waits due (ask (.pause n) next), [], w)
  | crashed {call next timeout w after} : call.timeout? = some timeout → w.meetFault call.name = (none, after) →
      after.deadline? timeout = none → Advances none (ask (.chat call) next) w (.crashed, [], after)
  | busy {due c w turn} : ¬ c.Waits → Advances none c w turn → Advances (some due) c w turn

/-- A turn of a conversation that has not begun, or waits until a time. -/
def turn (c : Conversation β) (due? : Option Nat) (w : World) : Turn β × PutOff × World :=
  match due? with
  | none => c.advance w
  | some due => c.resume due w

variable {c : Conversation β} {w between after : World} {due? : Option Nat} {took : Turn β × PutOff × World}

theorem Advances.behind {request : Request} {next : request.Answer → Conversation β} {answer : request.Answer}
    (later : (next answer).Advances none between took) (nothing : request.putOff = [])
    (meets : w.Meets due? request answer between) : (Conversation.ask request next).Advances due? w took := by
  have whole := Advances.ask meets later
  rwa [nothing, List.nil_append] at whole

theorem advances_advance : c.Advances none w (c.advance w) := by
  -- A turn can answer many requests before it stops, so the induction is on the conversation.
  induction c generalizing w with
  | done value => exact .done
  | ask request next ih =>
    cases request with
    | chat call =>
      cases call with
      | awaitReply | awaitReaction =>
        unfold advance
        split
        · rename_i faulted
          exact (ih _).behind rfl (.fails faulted)
        · rename_i faulted
          split
          · rename_i endless
            exact .crashed rfl faulted endless
          · rename_i due ends
            split
            · rename_i look
              have looks := World.Looks.first look rfl faulted ends
              rw [(World.deadline?_eq_some ends).2, ← (World.still_of_perform look).now] at looks ⊢
              split
              · rename_i instant
                exact (ih _).behind rfl (.looks looks fun _ => Nat.le_of_eq (congrArg (_ + ·) instant))
              · rename_i long
                exact .sleeps looks rfl (Nat.lt_add_of_pos_right (Nat.pos_of_ne_zero long))
            · rename_i answer _ found look
              refine (ih _).behind rfl (.looks (.first look rfl faulted ends) fun vain => ?_)
              rcases answer with _ | _ | _
              · cases vain
              · exact absurd rfl found
              · cases vain
      | send | sendDirect | edit | delete | clearReactions | setReactions | removeReaction | isDirect | isBot =>
        exact (ih _).behind rfl (World.meets_call rfl)
    | pause n =>
      cases n with
      | zero => exact (ih ()).behind rfl (.paused (Nat.le_refl _))
      | succ n => exact .pauses rfl (Nat.lt_add_of_pos_right (Nat.succ_pos n))
    | charge => exact (ih _).behind rfl .charge
    | clock => exact (ih _).behind rfl .clock
    | pick => exact (ih _).behind rfl .pick
    | deleteLater => exact .ask .deleteLater (ih ())
    | requestShutdown => exact (ih ()).behind rfl .requestShutdown
    | note => exact (ih ()).behind rfl .note

theorem advances_resume {due : Nat} : c.Advances (some due) w (c.resume due w) := by
  cases c with
  | done => exact .busy id advances_advance
  | ask request next =>
    cases request with
    | chat call =>
      cases call with
      | awaitReply | awaitReaction =>
        rw [resume]
        split
        · rename_i look
          split
          · rename_i expired
            exact advances_advance.behind rfl (.looks (.again look rfl) fun _ => expired)
          · rename_i early
            exact .sleeps (.again look rfl) rfl (Nat.lt_of_not_ge early)
        · rename_i answer _ found look
          refine advances_advance.behind rfl (.looks (.again look rfl) fun vain => ?_)
          rcases answer with _ | _ | _
          · cases vain
          · exact absurd rfl found
          · cases vain
      | send | sendDirect | edit | delete | clearReactions | setReactions | removeReaction | isDirect | isBot =>
        exact .busy id advances_advance
    | pause n =>
      rw [resume]
      split
      · rename_i expired
        exact advances_advance.behind rfl (.paused expired)
      · rename_i early
        exact .pauses rfl (Nat.lt_of_not_ge early)
    | charge | clock | pick | deleteLater | requestShutdown | note => exact .busy id advances_advance

theorem advances_turn : c.Advances due? w (c.turn due? w) := by
  cases due? with
  | none => exact advances_advance
  | some due => exact advances_resume

end Conversation

end ChatCommands
