import ChatCommands.Proofs.Dispatch.Twins
import ChatCommands.Proofs.Session.Remembrance

namespace ChatCommands

variable {α β : Type}

/-- A platform that gives the same answer to the same question. What it tells of a message that it has sent is
left open. -/
structure Platform where
  isBot : UserId → Except ChatError Bool
  isDirect : ChannelId → Except ChatError Bool
  send : ChannelId → String → Except ChatError Unit

def Platform.Answers (platform : Platform) : Exchange → Prop
  | ⟨.chat (.isBot user), answer⟩ => answer = platform.isBot user
  | ⟨.chat (.isDirect channel), answer⟩ => answer = platform.isDirect channel
  | ⟨.chat (.send channel content), answer⟩ => answer.map (fun _ => ()) = platform.send channel content
  | _ => True

theorem Exchange.sentBy_cons {e e' : Exchange} {log log' : List Exchange} (same : e.request = e'.request)
    (later : sentBy log = sentBy log') : sentBy (e :: log) = sentBy (e' :: log') := by
  have alike : e.sent? = e'.sent? := by rw [sent?, sent?, same]
  rw [sentBy, sentBy, List.filterMap_cons, List.filterMap_cons, alike]
  cases e'.sent? with
  | none => exact later
  | some entry => exact congrArg (entry :: ·) later

/-- The world from which a conversation about a message of `user` is held at the time `now`, and what comes after
it. -/
structure World.Hosts (w : World) (r : Registry α) (platform : Platform) (user : UserId)
    (mine : Limiter → List Instant) (now : Instant) (log rest : List Exchange) : Prop where
  recalls : w.Recalls r user mine (log ++ rest)
  levied : ∀ e ∈ log, e.charges = true → r.Levies user now e
  answered : ∀ e ∈ log, platform.Answers e
  timed : ∀ e ∈ log, ∀ time, e.clock? = some time → time = now

namespace World.Hosts

variable {w : World} {r : Registry α} {platform : Platform} {user : UserId} {mine : Limiter → List Instant}
variable {now : Instant} {e : Exchange} {log rest : List Exchange}

theorem next (hosts : w.Hosts r platform user mine now (e :: log) rest) :
    ∃ next : World, next.Hosts r platform user ((Exchange.tolls user [e]).foldl recollect mine) now log rest := by
  obtain ⟨recalls, levied, answered, timed⟩ := hosts
  have split : w.Recalls r user mine ([e] ++ (log ++ rest)) := recalls
  obtain ⟨next, later⟩ := split.past
  exact ⟨next, later, (List.forall_mem_cons.mp levied).2, (List.forall_mem_cons.mp answered).2,
    (List.forall_mem_cons.mp timed).2⟩

theorem charge_eq {limiter : Limiter} {caller : UserId} {time : Instant} {answer : Charge}
    (hosts : w.Hosts r platform user mine now (⟨.charge limiter caller time, answer⟩ :: log) rest) :
    answer = limiter.window.verdict (mine limiter) time := by
  obtain ⟨_, _, member, same⟩ := hosts.levied _ (List.mem_cons_self ..) rfl
  obtain ⟨rfl, rfl, rfl⟩ := Request.charge.inj (congrArg Exchange.request same)
  exact hosts.recalls.charge_eq member

variable {w' : World} {log' rest' : List Exchange}

/-- In two worlds that remember the same of the user, what dispatch goes by is answered alike. -/
theorem plain {request : Request} {answer answer' : request.Answer} (asks : request.Plain)
    (hosts : w.Hosts r platform user mine now (⟨request, answer⟩ :: log) rest)
    (hosts' : w'.Hosts r platform user mine now (⟨request, answer'⟩ :: log') rest') : answer = answer' := by
  cases asks with
  | isBot | isDirect =>
    have told := hosts.answered _ (List.mem_cons_self ..)
    have told' := hosts'.answered _ (List.mem_cons_self ..)
    exact told.trans told'.symm
  | clock =>
    have told := hosts.timed _ (List.mem_cons_self ..) _ rfl
    have told' := hosts'.timed _ (List.mem_cons_self ..) _ rfl
    exact told.trans told'.symm
  | charge => exact hosts.charge_eq.trans hosts'.charge_eq.symm

/-- A message is sent in both worlds, or it fails for the same reason in both. -/
theorem send {channel : ChannelId} {content : String} {answer answer' : Except ChatError Message}
    (hosts : w.Hosts r platform user mine now (⟨.chat (.send channel content), answer⟩ :: log) rest)
    (hosts' : w'.Hosts r platform user mine now (⟨.chat (.send channel content), answer'⟩ :: log') rest') :
    (∃ e, answer = .error e ∧ answer' = .error e) ∨ ∃ sent sent', answer = .ok sent ∧ answer' = .ok sent' := by
  have told : answer.map (fun _ => ()) = _ := hosts.answered _ (List.mem_cons_self ..)
  have told' : answer'.map (fun _ => ()) = _ := hosts'.answered _ (List.mem_cons_self ..)
  have alike := told.trans told'.symm
  cases answer with
  | error e =>
    cases answer' with
    | error e' =>
      cases alike
      exact .inl ⟨e, rfl, rfl⟩
    | ok => cases alike
  | ok sent =>
    cases answer' with
    | error => cases alike
    | ok sent' => exact .inr ⟨sent, sent', rfl, rfl⟩

end World.Hosts

/-- Two worlds that remember the same of a user hold a conversation about the user's message alike. -/
theorem Conversation.Twins.agree {c c' : Conversation β} (twins : c.Twins c') {r : Registry α}
    {platform : Platform} {user : UserId} {now : Instant} {w w' : World} {mine : Limiter → List Instant}
    {log log' rest rest' : List Exchange} {result result' : β} (run : c.Held log result) (run' : c'.Held log' result')
    (hosts : w.Hosts r platform user mine now log rest) (hosts' : w'.Hosts r platform user mine now log' rest') :
    result = result' ∧ sentBy log = sentBy log' ∧ Exchange.tolls user log = Exchange.tolls user log' := by
  induction twins generalizing w w' mine log log' with
  | done =>
    cases run
    cases run'
    exact ⟨rfl, rfl, rfl⟩
  | @plain request next next' asks _ ih =>
    cases run with
    | @ask _ _ answer _ _ later =>
      cases run' with
      | ask later' =>
        obtain rfl := hosts.plain asks hosts'
        obtain ⟨v, left⟩ := hosts.next
        obtain ⟨v', left'⟩ := hosts'.next
        obtain ⟨results, sent, tolls⟩ := ih _ later later' left left'
        refine ⟨results, Exchange.sentBy_cons rfl sent, ?_⟩
        rw [← List.singleton_append, Exchange.tolls_append, tolls, ← Exchange.tolls_append]
        rfl
  | send _ _ failed sent =>
    cases run with
    | ask later =>
      cases run' with
      | ask later' =>
        obtain ⟨v, left⟩ := hosts.next
        obtain ⟨v', left'⟩ := hosts'.next
        rcases hosts.send hosts' with ⟨e, rfl, rfl⟩ | ⟨m, m', rfl, rfl⟩
        · obtain ⟨results, sents, tolls⟩ := failed e later later' left left'
          exact ⟨results, Exchange.sentBy_cons rfl sents, tolls⟩
        · obtain ⟨results, sents, tolls⟩ := sent m m' later later' left left'
          exact ⟨results, Exchange.sentBy_cons rfl sents, tolls⟩
  | deleteLater _ ih =>
    cases run with
    | ask later =>
      cases run' with
      | ask later' =>
        obtain ⟨v, left⟩ := hosts.next
        obtain ⟨v', left'⟩ := hosts'.next
        obtain ⟨results, sents, tolls⟩ := ih later later' left left'
        exact ⟨results, sents, tolls⟩

/-- A message that was handled at the time `now`, on a platform and with actions whose results depend on nothing but
what they are given. -/
structure Bot.Fits (bot : Bot α) (platform : Platform) (deed : Act α → Except ActionError Unit) (run : Handled α)
    (now : Instant) : Prop where
  timed : ∀ e ∈ run.own, ∀ time, e.clock? = some time → time = now
  answered : ∀ e ∈ run.own, platform.Answers e
  performed : ∀ act outcome, run.act? = some act →
    (bot.perform act.action act.inv act.values).run.Held run.during outcome → outcome = deed act

/-- An action charges a user, if at all, for a message of that user, and then as what it is given tells. -/
structure Handled.Fair (user : UserId) (due : Act α → List (Limiter × Instant)) (run : Handled α) : Prop where
  own : run.message.author = user → ∀ act, run.act? = some act → Exchange.tolls user run.during = due act
  others : run.message.author ≠ user → Exchange.tolls user run.during = []

/-- Messages that are handled one after another from a world on, each at its time. -/
structure Bot.Calls (bot : Bot α) (platform : Platform) (deed : Act α → Except ActionError Unit) (w : World)
    (calls : List (Handled α × Instant)) : Prop where
  each : ∃ after, bot.HandlesEach w (calls.map Prod.fst) after
  fits : ∀ call ∈ calls, bot.Fits platform deed call.1 call.2

/-- All exchanges about some messages, in their order. -/
def Bot.log (calls : List (Handled α × Instant)) : List Exchange := (calls.map Prod.fst).flatMap Handled.log

namespace Bot

variable {bot : Bot α} {platform : Platform} {deed : Act α → Except ActionError Unit}
variable {due : Act α → List (Limiter × Instant)} {run run' : Handled α} {now : Instant}
variable {w w' : World} {user : UserId} {mine : Limiter → List Instant} {rest rest' : List Exchange}

theorem Fits.levied (fits : bot.Fits platform deed run now)
    (course : bot.Handles run.message run.own run.act? run.during run.result) :
    ∀ e ∈ run.own, e.charges = true → bot.registry.Levies run.message.author now e := by
  intro e member charges
  obtain ⟨time, clocked, levies⟩ := course.levies e member charges
  obtain ⟨clock, among, told⟩ := List.exists_of_findSome?_eq_some clocked
  rwa [fits.timed clock among time told] at levies

/-- The verdict of dispatch, and what it makes of a message. -/
theorem Handles.verdict (course : bot.Handles run.message run.own run.act? run.during run.result) :
    ∃ verdict, (bot.dispatch run.message).run.Held run.own verdict ∧
      match verdict with
      | .error e => run.act? = none ∧ run.during = [] ∧ run.result = .error e
      | .ok (.settled outcome) => run.act? = none ∧ run.during = [] ∧ run.result = .ok outcome
      | .ok (.run inv command action values) => run.act? = some ⟨inv, command, action, values⟩ ∧
          ∃ outcome, (bot.perform action inv values).run.Held run.during outcome ∧
            run.result = match outcome with
              | .ok () => .ok .handled
              | .error cause => .error (.action command cause) := by
  obtain ⟨message, own, act?, during, result⟩ := run
  cases course with
  | failed run => exact ⟨_, run, rfl, rfl, rfl⟩
  | settled run => exact ⟨_, run, rfl, rfl, rfl⟩
  | acted run done => exact ⟨_, run, rfl, _, done, rfl⟩
  | actFailed run done => exact ⟨_, run, rfl, _, done, rfl⟩

/-- A message that was handled by a bot, as calls are: it fits the time and the platform, and is fair to a user. -/
structure Meets (bot : Bot α) (platform : Platform) (deed : Act α → Except ActionError Unit)
    (due : Act α → List (Limiter × Instant)) (user : UserId) (run : Handled α) (now : Instant) : Prop where
  course : bot.Handles run.message run.own run.act? run.during run.result
  fits : bot.Fits platform deed run now
  fair : run.Fair user due

theorem Meets.hosts (meets : bot.Meets platform deed due user run now) (own : run.message.author = user)
    (recalls : w.Recalls bot.registry user mine (run.log ++ rest)) :
    w.Hosts bot.registry platform user mine now run.own (run.during ++ rest) := by
  rw [Handled.log, List.append_assoc] at recalls
  exact ⟨recalls, own ▸ meets.fits.levied meets.course, meets.fits.answered, meets.fits.timed⟩

/-- A message of somebody else charges a user for nothing. -/
theorem Meets.tolls_eq_nil (meets : bot.Meets platform deed due user run now) (other : run.message.author ≠ user) :
    Exchange.tolls user run.log = [] := by
  rw [Handled.log, Exchange.tolls_append, meets.fair.others other, List.append_nil]
  exact Exchange.tolls_eq_nil_of_levies (meets.fits.levied meets.course) other

/-- Two worlds that remember the same of a user make the same of a message of that user. -/
theorem Meets.agree (meets : bot.Meets platform deed due user run now)
    (meets' : bot.Meets platform deed due user run' now) (same : run'.message = run.message)
    (own : run.message.author = user) (recalls : w.Recalls bot.registry user mine (run.log ++ rest))
    (recalls' : w'.Recalls bot.registry user mine (run'.log ++ rest')) :
    (run.act?, run.result, sentBy run.own) = (run'.act?, run'.result, sentBy run'.own) ∧
      Exchange.tolls user run.log = Exchange.tolls user run'.log := by
  have own' : run'.message.author = user := same ▸ own
  obtain ⟨verdict, dispatched, comes⟩ := meets.course.verdict
  obtain ⟨verdict', dispatched', comes'⟩ := meets'.course.verdict
  rw [same] at dispatched'
  obtain ⟨rfl, sents, tolls⟩ :=
    blind_dispatch.agree dispatched dispatched' (meets.hosts own recalls) (meets'.hosts own' recalls')
  obtain ⟨acts, results, later⟩ : run.act? = run'.act? ∧ run.result = run'.result ∧
      Exchange.tolls user run.during = Exchange.tolls user run'.during := by
    match verdict, comes, comes' with
    | .error e, ⟨idle, nothing, failed⟩, ⟨idle', nothing', failed'⟩ =>
      exact ⟨idle.trans idle'.symm, failed.trans failed'.symm, by rw [nothing, nothing']⟩
    | .ok (.settled outcome), ⟨idle, nothing, settled⟩, ⟨idle', nothing', settled'⟩ =>
      exact ⟨idle.trans idle'.symm, settled.trans settled'.symm, by rw [nothing, nothing']⟩
    | .ok (.run inv command action values), ⟨acts, outcome, done, result⟩, ⟨acts', outcome', done', result'⟩ =>
      obtain rfl := meets.fits.performed _ _ acts done
      obtain rfl := meets'.fits.performed _ _ acts' done'
      have charged := meets.fair.own own _ acts
      have charged' := meets'.fair.own own' _ acts'
      exact ⟨acts.trans acts'.symm, result.trans result'.symm, charged.trans charged'.symm⟩
  refine ⟨by rw [acts, results, sents], ?_⟩
  rw [Handled.log, Handled.log, Exchange.tolls_append, Exchange.tolls_append, tolls, later]

/-- The calls from a world on that has the accepted hits of a user as `mine` tells. -/
structure Ahead (bot : Bot α) (platform : Platform) (deed : Act α → Except ActionError Unit)
    (due : Act α → List (Limiter × Instant)) (user : UserId) (mine : Limiter → List Instant) (w : World)
    (calls : List (Handled α × Instant)) : Prop where
  meets : ∀ call ∈ calls, bot.Meets platform deed due user call.1 call.2
  recalls : w.Recalls bot.registry user mine (log calls)

theorem Calls.ahead {calls : List (Handled α × Instant)} (run : bot.Calls platform deed w calls)
    (fair : ∀ call ∈ calls, call.1.Fair user due)
    (fresh : ∀ limiter, bot.registry.Limits limiter → w.limits.lookup limiter = none)
    (inOrder : ∀ limiter, bot.registry.Limits limiter → Exchange.InOrder limiter (log calls)) :
    bot.Ahead platform deed due user (fun _ => []) w calls := by
  obtain ⟨⟨after, each⟩, fits⟩ := run
  refine ⟨fun call member => ⟨?_, fits call member, fair call member⟩, .of_fresh each.serves fresh inOrder user⟩
  exact each.handles call.1 (List.mem_map_of_mem member)

theorem Fits.eq_of_time? {time : Instant} (fits : bot.Fits platform deed run now) (clocked : run.time? = some time) :
    time = now := by
  obtain ⟨e, member, told⟩ := List.exists_of_findSome?_eq_some clocked
  exact fits.timed e member time told

/-- When messages are dispatched in the order of time and actions are punctual, so are all hits. -/
theorem Calls.inOrder {calls : List (Handled α × Instant)} {limiter : Limiter}
    (run : bot.Calls platform deed w calls) (punctual : ∀ call ∈ calls, call.1.Punctual limiter)
    (inOrder : calls.Pairwise fun s t => s.2.toInt ≤ t.2.toInt) : Exchange.InOrder limiter (log calls) := by
  obtain ⟨⟨after, each⟩, fits⟩ := run
  refine each.inOrder (List.forall_mem_map.mpr punctual) ?_
  rw [List.filterMap_map, List.pairwise_filterMap]
  refine inOrder.imp_of_mem fun {s t} first later le time clocked time' clocked' => ?_
  rw [(fits s first).eq_of_time? clocked, (fits t later).eq_of_time? clocked']
  exact le

section

variable {call call' : Handled α × Instant} {calls calls' skipped : List (Handled α × Instant)}

/-- A message of somebody else leaves what is remembered of a user as it is. -/
theorem Ahead.pass (ahead : bot.Ahead platform deed due user mine w (call :: calls))
    (other : call.1.message.author ≠ user) : ∃ between, bot.Ahead platform deed due user mine between calls := by
  obtain ⟨meets, recalls⟩ := ahead
  obtain ⟨first, others⟩ := List.forall_mem_cons.mp meets
  obtain ⟨between, kept⟩ := recalls.past
  rw [first.tolls_eq_nil other] at kept
  exact ⟨between, others, kept⟩

theorem Ahead.skip (ahead : bot.Ahead platform deed due user mine w (skipped ++ calls))
    (others : ∀ call ∈ skipped, call.1.message.author ≠ user) :
    ∃ between, bot.Ahead platform deed due user mine between calls := by
  induction skipped generalizing w with
  | nil => exact ⟨w, ahead⟩
  | cons call rest ih =>
    obtain ⟨other, others⟩ := List.forall_mem_cons.mp others
    obtain ⟨between, later⟩ := ahead.pass other
    exact ih later others

/-- A message of the user comes to the same from both worlds, and they remember the same of the user after it. -/
theorem Ahead.agree (ahead : bot.Ahead platform deed due user mine w (call :: calls))
    (ahead' : bot.Ahead platform deed due user mine w' (call' :: calls')) (own : call.1.message.author = user)
    (same : (call'.1.message, call'.2) = (call.1.message, call.2)) :
    (call.1.act?, call.1.result, sentBy call.1.own) = (call'.1.act?, call'.1.result, sentBy call'.1.own) ∧
      ∃ between between' mine', bot.Ahead platform deed due user mine' between calls ∧
        bot.Ahead platform deed due user mine' between' calls' := by
  obtain ⟨run, now⟩ := call
  obtain ⟨run', now'⟩ := call'
  obtain ⟨alike, rfl⟩ := Prod.mk.inj same
  obtain ⟨meets, recalls⟩ := ahead
  obtain ⟨meets', recalls'⟩ := ahead'
  obtain ⟨first, others⟩ := List.forall_mem_cons.mp meets
  obtain ⟨first', others'⟩ := List.forall_mem_cons.mp meets'
  obtain ⟨answers, tolls⟩ := first.agree first' alike own recalls recalls'
  obtain ⟨between, kept⟩ := recalls.past
  obtain ⟨between', kept'⟩ := recalls'.past
  rw [← tolls] at kept'
  exact ⟨answers, between, between', _, ⟨others, kept⟩, others', kept'⟩

end

/-- The calls that are about messages of a user. -/
def callsOf (user : UserId) (calls : List (Handled α × Instant)) : List (Handled α × Instant) :=
  calls.filter fun call => call.1.message.author == user

theorem callsOf_cons_of_eq {call : Handled α × Instant} (own : call.1.message.author = user)
    (rest : List (Handled α × Instant)) : callsOf user (call :: rest) = call :: callsOf user rest :=
  List.filter_cons_of_pos (beq_iff_eq.mpr own)

theorem callsOf_cons_of_ne {call : Handled α × Instant} (other : call.1.message.author ≠ user)
    (rest : List (Handled α × Instant)) : callsOf user (call :: rest) = callsOf user rest :=
  List.filter_cons_of_neg fun same => other (beq_iff_eq.mp same)

/-- The messages of a user, each with the time at which it is handled. -/
def messagesOf (user : UserId) (calls : List (Handled α × Instant)) : List (Message × Instant) :=
  (callsOf user calls).map fun call => (call.1.message, call.2)

/-- What becomes of the messages of a user: the actions that run, the results, and what the bot sends. -/
def answersTo (user : UserId) (calls : List (Handled α × Instant)) :
    List (Option (Act α) × Except CommandError Outcome × List (ChannelId × String)) :=
  (callsOf user calls).map fun call => (call.1.act?, call.1.result, sentBy call.1.own)

theorem Ahead.isolated {calls calls' : List (Handled α × Instant)}
    (ahead : bot.Ahead platform deed due user mine w calls) (ahead' : bot.Ahead platform deed due user mine w' calls')
    (same : messagesOf user calls = messagesOf user calls') : answersTo user calls = answersTo user calls' := by
  induction calls generalizing w w' mine calls' with
  | nil => rw [answersTo, answersTo, List.map_eq_nil_iff.mp same.symm, callsOf, List.filter_nil]
  | cons call rest ih =>
    by_cases own : call.1.message.author = user
    · -- The user's next message in the other run comes after some messages of others.
      rw [messagesOf, callsOf_cons_of_eq own, List.map_cons] at same
      obtain ⟨call', kept, first, alike, follow⟩ := List.map_eq_cons_iff.mp same.symm
      obtain ⟨skipped, later, rfl, others, _, rfl⟩ := List.filter_eq_cons_iff.mp first
      obtain ⟨between, next⟩ := ahead'.skip fun x member => mt beq_iff_eq.mpr (others x member)
      obtain ⟨answers, v, v', mine', left, left'⟩ := ahead.agree next own alike
      have rest := ih left left' follow.symm
      rw [answersTo, answersTo, callsOf_cons_of_eq own, first, List.map_cons, List.map_cons, answers]
      exact congrArg _ rest
    · obtain ⟨between, later⟩ := ahead.pass own
      rw [messagesOf, callsOf_cons_of_ne own] at same
      rw [answersTo, callsOf_cons_of_ne own]
      exact ih later ahead' same

end Bot

namespace Throttled

/-- Nobody is a bot here, no channel is a direct one, and everything that is sent is delivered. -/
def quiet : Platform := ⟨fun _ => .ok false, fun _ => .ok false, fun _ _ => .ok ()⟩

/-- Somebody else calls for the same command in between. -/
def foreign : Handled Unit where
  message := other
  own := meddled.own
  act? := meddled.act?
  during := []
  result := .ok .handled

def deed : Act Unit → Except ActionError Unit := fun _ => .ok ()

/-- The world after the first call, in which the budget of its author is used up. -/
def charged : World := (start.charge limiter "2" 0).2

/-- The second call of the first user, which is throttled when nobody meddles. -/
def refused : Handled Unit := { second with message := call "!git status" }

end Throttled

end ChatCommands
