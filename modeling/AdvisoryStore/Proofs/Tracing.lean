import Mathlib.Data.List.Forall2
import AdvisoryStore.Proofs.Silence

/-!
# Tracing changes what is written and nothing else

A verbose store also logs what goes well: every lock that is taken or
released, every wait that is given up, every result that was there already.
These messages are known by their tags (`isTracing`). This module says that
they are all there is to being verbose. A session and the same session with
tracing off (`Session.silent`, after the module before this one) go through
the same states, answer the same to every command, and wake the same calls
at the same instants in the same order (`Session.tracing_changes_nothing`);
what they write to the log differs in the tracing messages, which are
missing from the second, and what they write to the log of errors does not
differ at all.

The messages are compared one by one and command by command, not as the
bytes that a command wrote: a key may well contain a newline and a tag, and
then the bytes alone do not say where one message ends and the next begins.
-/

namespace AdvisoryStore

/-! ## Messages -/

/-- The tags of the messages that only a verbose store writes. -/
def tracingTags : List String :=
  ["lock-acquired", "lock-released", "lock-timeout", "lock-expired", "txn-cached", "demo"]

/-- **Whether a message is one of tracing**: it opens with one of the tags. -/
def isTracing (message : Bytes) : Bool :=
  tracingTags.any (fun tag => (utf8 "[" ++ utf8 tag ++ utf8 "] ").isPrefixOf message)

/-- The text of a line that goes to a stream. -/
def Line.message? (stream : Stream) (line : Line) : Option Bytes :=
  if line.stream = stream then some line.text else none

/-- **The messages that events write** to one of the two logs. -/
def World.messages (w : World) (stream : Stream) (events : List Event) : List Bytes :=
  events.filterMap (fun e => (w.line? e).bind (Line.message? stream))

/-- What is written is the messages, one after the other. -/
theorem World.written_eq_flatten (w : World) (stream : Stream) (events : List Event) :
    w.written stream events = (w.messages stream events).flatten := by
  unfold World.written World.messages
  induction events with
  | nil => rfl
  | cons e rest ih =>
    cases line : w.line? e with
    | none => simpa [line] using ih
    | some l =>
      by_cases same : l.stream = stream
      · simp [line, Line.message?, same, ih]
      · simp [line, Line.message?, same, ih]

namespace Happening

/-- What only a verbose store writes is tracing. -/
theorem isTracing_of_detail? {h : Happening} {text : Bytes} (detail : h.detail? = some text) :
    isTracing text := by
  cases h <;> cases detail <;> rfl

/-- What every store writes is not. -/
theorem isTracing_of_notice? {h : Happening} {line : Line} (notice : h.notice? = some line) :
    isTracing line.text = false := by
  cases h <;> cases notice <;> rfl

/-- **A store that is not verbose leaves the tracing out.** -/
theorem filter_message?_line? (verbose : Bool) (h : Happening) :
    ((h.line? verbose).bind (Line.message? .out)).filter (fun text => !isTracing text)
      = (h.line? false).bind (Line.message? .out) := by
  unfold line?
  cases notice : h.notice? with
  | some line =>
    have kept := isTracing_of_notice? notice
    by_cases out : line.stream = .out <;> simp [Line.message?, out, kept]
  | none =>
    cases verbose with
    | false => rfl
    | true =>
      cases detail : h.detail? with
      | none => rfl
      | some text => simp [Line.message?, isTracing_of_detail? detail]

/-- Tracing does not go to the log of errors. -/
theorem message?_line?_err (verbose : Bool) (h : Happening) :
    (h.line? verbose).bind (Line.message? .err) = (h.line? false).bind (Line.message? .err) := by
  unfold line?
  cases h.notice? with
  | some line => rfl
  | none => cases verbose <;> cases h.detail? <;> rfl

end Happening

namespace World

variable (w : World) (events : List Event)

/-- A line of a silenced world is one of a store that is not verbose. -/
theorem line?_silent (e : Event) : w.silent.line? e = e.what.line? false := by
  simp only [line?, store_silent]
  rfl

/-- **The messages of a silenced world** are those of the world without the
tracing. -/
theorem messages_silent :
    w.silent.messages .out events
      = (w.messages .out events).filter (fun text => !isTracing text) := by
  simp only [messages, List.filter_filterMap, line?_silent]
  exact congrArg (List.filterMap · events)
    (funext fun e => (Happening.filter_message?_line? _ e.what).symm)

/-- The messages about errors are the same. -/
theorem messages_err_silent : w.silent.messages .err events = w.messages .err events := by
  simp only [messages, line?_silent]
  exact congrArg (List.filterMap · events)
    (funext fun e => (Happening.message?_line?_err _ e.what).symm)

end World

/-! ## Sessions -/

/-- A call that waits and brings no tracing into a session. -/
def Call.silent (c : Call) : Call :=
  { c with point := c.point.silent, stack := c.stack.map Frame.silent }

/-- An answer that shows no flag. -/
def Return.silent (r : Return) : Return := { r with reply := r.reply.silent }

/-- A command that brings no tracing into a session. -/
def Command.silent : Command → Command
  | call a => call a.silent
  | c => c

/-- Every bell has rung as often. -/
@[simp] theorem Point.rings_silent (p : Point) (w : World) :
    p.silent.rings w.silent = p.rings w := by
  simp only [rings, bell?_silent, World.store_silent]
  rfl

namespace Call

variable (c : Call) (now : Instant) (w : World)

@[simp] theorem ready_silent : c.silent.ready now w.silent = c.ready now w := by
  simp [ready, silent]

/-- A call that looks again does the same in silence. -/
theorem retry_silent :
    c.silent.retry now w.silent = ((c.retry now w).1.silent, (c.retry now w).2.silent) := by
  simp only [retry, silent, Point.pass_silent]
  cases c.point.pass now w true c.stack with
  | passed w' next => exact next.run_silent now w'
  | waits wake => rfl

end Call

namespace Session

/-- **A session with tracing off.** Nothing else is different. -/
def silent (s : Session) : Session :=
  { s with
    world := s.world.silent
    calls := s.calls.map Call.silent
    returned := s.returned.map Return.silent }

variable (s : Session)

@[simp] theorem file_silent (before : List Call) (id : Nat) (after : List Call) (w : World)
    (standing : Standing) :
    s.silent.file (before.map Call.silent) id (after.map Call.silent) (w.silent, standing.silent)
      = (s.file before id after (w, standing)).silent := by
  cases standing with
  | waiting p stack wake => simp [file, silent, Standing.silent, Call.silent]
  | finished reply => simp [file, silent, Standing.silent, Return.silent]

/-- The same calls have no cause to look again. -/
theorem isIdle_comp_silent : s.silent.isIdle ∘ Call.silent = s.isIdle := by
  funext c
  simp [isIdle, silent]

/-- The call to be resumed is the same. -/
theorem dropWhile_isIdle_silent :
    s.silent.calls.dropWhile s.silent.isIdle = (s.calls.dropWhile s.isIdle).map Call.silent := by
  show (s.calls.map Call.silent).dropWhile s.silent.isIdle = _
  rw [List.dropWhile_map, isIdle_comp_silent]

/-- The calls before it are the same. -/
theorem takeWhile_isIdle_silent :
    s.silent.calls.takeWhile s.silent.isIdle = (s.calls.takeWhile s.isIdle).map Call.silent := by
  show (s.calls.map Call.silent).takeWhile s.silent.isIdle = _
  rw [List.takeWhile_map, isIdle_comp_silent]

/-- **The same calls are resumed**, in the same order. -/
@[simp] theorem drain_silent : s.silent.drain = s.drain.silent := by
  fun_induction drain s with
  | case1 s none =>
    unfold drain
    split
    · rfl
    · next eq => simp [dropWhile_isIdle_silent, none] at eq
  | case2 s c after h ih =>
    conv => lhs; unfold drain
    split
    · next eq => simp [dropWhile_isIdle_silent, h] at eq
    · next first rest eq =>
      rw [dropWhile_isIdle_silent, h] at eq
      obtain ⟨rfl, rfl⟩ := List.cons.inj eq
      have retried : c.silent.retry s.silent.now s.silent.world
          = ((c.retry s.now s.world).1.silent, (c.retry s.now s.world).2.silent) :=
        c.retry_silent s.now s.world
      rw [takeWhile_isIdle_silent, retried, file_silent, ← ih]
      rfl

/-- The next moment at which a call is to look again is the same. -/
@[simp] theorem nextWake_silent : s.silent.nextWake = s.nextWake := by
  simp only [nextWake, silent, List.foldl_map]
  rfl

@[simp] theorem runUntil_silent (target : Instant) :
    s.silent.runUntil target = (s.runUntil target).silent := by
  fun_induction runUntil s target with
  | case1 s none =>
    unfold runUntil
    rw [nextWake_silent, none]
  | case2 s t wake ahead ih =>
    have moved : ({ s.silent with now := t } : Session).drain
        = ({ s with now := t } : Session).drain.silent := drain_silent { s with now := t }
    conv => lhs; unfold runUntil
    rw [nextWake_silent, wake]
    simp only [moved, ih]
    exact dif_pos ahead
  | case3 s t wake late =>
    unfold runUntil
    rw [nextWake_silent, wake]
    exact dif_neg late

@[simp] theorem advance_silent (d : Duration) : s.silent.advance d = (s.advance d).silent := by
  have now : s.silent.now = s.now := rfl
  simp only [advance, now, runUntil_silent]
  rfl

@[simp] theorem settle_silent : s.silent.settle = s.settle.silent := s.runUntil_silent Instant.last

/-- A call is taken on in silence as it is aloud. -/
theorem call_silent (a : Action) :
    s.silent.call a.silent = ((s.call a).1.silent, (s.call a).2.map Reply.silent) := by
  have run : Control.run s.silent.now s.silent.world ⟨.perform a.silent, []⟩
      = ((Control.run s.now s.world ⟨.perform a, []⟩).1.silent,
        (Control.run s.now s.world ⟨.perform a, []⟩).2.silent) :=
    Control.run_silent s.now s.world ⟨.perform a, []⟩
  have filed := ({ s with nextId := s.nextId + 1 } : Session).file_silent s.calls s.nextId []
    (Control.run s.now s.world ⟨.perform a, []⟩).1 (Control.run s.now s.world ⟨.perform a, []⟩).2
  simp only [call, run]
  refine Prod.ext filed ?_
  cases (Control.run s.now s.world ⟨.perform a, []⟩).2 <;> rfl

/-- A command is issued in silence as it is aloud. -/
theorem issue_silent (c : Command) :
    s.silent.issue c.silent = ((s.issue c).1.silent, (s.issue c).2.map Reply.silent) := by
  cases c with
  | call a => exact s.call_silent a
  | _ => rfl

/-- What follows a command is the same in silence. -/
theorem follow_silent (c : Command) : s.silent.follow c.silent = (s.follow c).silent := by
  cases c <;> simp [Command.silent, follow]

end Session

/-! ## What can be seen -/

/-- **What is reported without tracing, of what is reported with it**:
everything is the same but for the flag in what is shown and for the bytes
written to the log. -/
structure Report.Untraced (r q : Report) : Prop where
  reply : q.reply = r.reply.map Reply.silent
  now : q.now = r.now
  locked : q.locked = r.locked
  records : q.records = r.records
  err : q.err = r.err
  woken : q.woken = r.woken.map Return.silent

theorem addedTo_map {α β : Type} (f : α → β) (old new : List α) :
    addedTo (old.map f) (new.map f) = (addedTo old new).map f := by
  simp [addedTo, List.map_take]

namespace Session

/-- A session from its commands to its end, when the handles that are kept
are destroyed. -/
def play (s : Session) (commands : List Command) : Session × List Report :=
  match s.carryOutAll commands with
  | (s, reports) =>
    match s.close with
    | (s, last) => (s, reports ++ [last])

/-- The messages written between two states of a session. -/
def messagesUntil (s final : Session) : List Bytes :=
  final.world.messages .out (addedTo s.world.events final.world.events)

/-- **The messages a session writes** to the log, from its commands to its
end: those of each command, and those of the end. -/
def messages (s : Session) : List Command → List (List Bytes)
  | [] => [s.messagesUntil s.close.1]
  | c :: rest => s.messagesUntil (s.carryOut c).1 :: (s.carryOut c).1.messages rest

/-- What is reported to be written is the messages, one after the other. -/
theorem out_play (s : Session) (commands : List Command) :
    (s.play commands).2.map Report.out = (s.messages commands).map List.flatten := by
  induction commands generalizing s with
  | nil =>
    simp [play, carryOutAll, messages, close, report, messagesUntil, World.written_eq_flatten]
  | cons c rest ih =>
    have here : (s.carryOut c).2.out = (s.messagesUntil (s.carryOut c).1).flatten :=
      World.written_eq_flatten ..
    have later := ih (s.carryOut c).1
    simp only [play, carryOutAll, List.cons_append, List.map_cons, messages] at later ⊢
    rw [here, later]

variable (s : Session)

/-- The messages without tracing are those with it but for the tracing. -/
theorem messagesUntil_silent (final : Session) :
    s.silent.messagesUntil final.silent
      = (s.messagesUntil final).filter (fun text => !isTracing text) :=
  final.world.messages_silent _

/-- **A report in silence is the report without its traces.** -/
theorem untraced_report (issued final : Session) (reply : Option Reply) :
    (s.report issued final reply).Untraced
      (s.silent.report issued.silent final.silent (reply.map Reply.silent)) where
  reply := rfl
  now := rfl
  locked := by
    simp only [report, silent, World.currentStore_silent]
    rfl
  records := by
    simp only [report, silent, World.currentStore_silent]
    rfl
  err := by
    simp only [report, World.written_eq_flatten]
    exact congrArg List.flatten (final.world.messages_err_silent _)
  woken := addedTo_map ..

/-- **A command comes to the same.** -/
theorem carryOut_silent (c : Command) :
    (s.silent.carryOut c.silent).1 = (s.carryOut c).1.silent
      ∧ (s.carryOut c).2.Untraced (s.silent.carryOut c.silent).2 := by
  simp only [carryOut, issue_silent, follow_silent]
  exact ⟨trivial, s.untraced_report ..⟩

/-- **The end comes to the same**: the handles that are kept are destroyed
alike. -/
theorem close_silent :
    s.silent.close.1 = s.close.1.silent ∧ s.close.2.Untraced s.silent.close.2 := by
  have destroyed (slots : List Bytes) (w : World) :
      slots.foldl (fun w slot => (w.handleDestroy s.now slot).1) w.silent
        = (slots.foldl (fun w slot => (w.handleDestroy s.now slot).1) w).silent := by
    induction slots generalizing w with
    | nil => rfl
    | cons slot rest ih => rw [List.foldl_cons, List.foldl_cons, World.handleDestroy_silent, ih]
  let issued : Session := { s with
    world := (inByteOrder s.world.slots.keys).foldl
      (fun w slot => (w.handleDestroy s.now slot).1) s.world }
  have same : s.silent.close
      = (issued.silent.drain, s.silent.report issued.silent issued.silent.drain (some .done)) := by
    have world : (inByteOrder s.silent.world.slots.keys).foldl
        (fun w slot => (w.handleDestroy s.silent.now slot).1) s.silent.world
          = issued.silent.world := destroyed _ s.world
    simp only [close, world]
    rfl
  rw [same, drain_silent]
  exact ⟨rfl, s.untraced_report issued issued.drain (some .done)⟩

/-- **A session played in silence ends where the session aloud ends**, and its reports
are those without the traces. -/
theorem play_silent (commands : List Command) :
    (s.silent.play (commands.map Command.silent)).1 = (s.play commands).1.silent
      ∧ List.Forall₂ Report.Untraced (s.play commands).2
        (s.silent.play (commands.map Command.silent)).2 := by
  induction commands generalizing s with
  | nil => exact ⟨s.close_silent.1, .cons s.close_silent.2 .nil⟩
  | cons c rest ih =>
    obtain ⟨same, untraced⟩ := s.carryOut_silent c
    obtain ⟨end_same, later⟩ := ih (s.carryOut c).1
    rw [← same] at end_same later
    exact ⟨end_same, .cons untraced later⟩

theorem messages_silent (commands : List Command) :
    s.silent.messages (commands.map Command.silent)
      = (s.messages commands).map (List.filter (fun text => !isTracing text)) := by
  induction commands generalizing s with
  | nil =>
    simp only [List.map_nil, messages, s.close_silent.1, messagesUntil_silent, List.map_cons]
  | cons c rest ih =>
    simp only [List.map_cons, messages, (s.carryOut_silent c).1, messagesUntil_silent, ih]

theorem start_silent (hash : Bytes → Nat) (settings : StoreSettings) (environment : Environment)
    (now : Instant) :
    start hash settings.silent environment.silent now
      = (start hash settings environment now).silent := rfl

/-- **Flags make no difference to anything else.** Two sessions that are the
same but for flags, wherever these stand, end in the same state but for
flags, are reported to do the same, and write the same messages apart from
tracing. This also covers sessions in which some stores are verbose and
others are not. -/
theorem flags_make_no_difference {s t : Session} (same : s.silent = t.silent)
    {commands commands' : List Command}
    (alike : commands.map Command.silent = commands'.map Command.silent) :
    (s.play commands).1.silent = (t.play commands').1.silent
      ∧ (∃ reports, List.Forall₂ Report.Untraced (s.play commands).2 reports
        ∧ List.Forall₂ Report.Untraced (t.play commands').2 reports)
      ∧ (s.messages commands).map (List.filter (fun text => !isTracing text))
        = (t.messages commands').map (List.filter (fun text => !isTracing text)) := by
  obtain ⟨final, reports⟩ := s.play_silent commands
  obtain ⟨final', reports'⟩ := t.play_silent commands'
  have messages := s.messages_silent commands
  rw [same, alike] at final reports messages
  exact ⟨final.symm.trans final', ⟨_, reports, reports'⟩,
    messages.symm.trans (t.messages_silent commands')⟩

/-- **Tracing changes what is written and nothing else.** Take any session,
of which any stores may be verbose – all of them, for one – and the same
session with tracing off. It ends in the same state, with the same records,
locks, counts and calls that still wait; every command is answered the same,
at the same instant, wakes the same calls in the same order, and writes the
same to the log of errors; and the messages it writes to the log are those
that it writes with tracing on, one by one and in the same order, with the
tracing left out. What is reported to be written is these messages. -/
theorem tracing_changes_nothing (hash : Bytes → Nat) (settings : StoreSettings)
    (environment : Environment) (now : Instant) (commands : List Command) :
    let traced := start hash settings environment now
    let untraced := start hash settings.silent environment.silent now
    let quietly := commands.map Command.silent
    (untraced.play quietly).1 = (traced.play commands).1.silent
      ∧ List.Forall₂ Report.Untraced (traced.play commands).2 (untraced.play quietly).2
      ∧ untraced.messages quietly
        = (traced.messages commands).map (List.filter (fun text => !isTracing text))
      ∧ (traced.play commands).2.map Report.out = (traced.messages commands).map List.flatten
      ∧ (untraced.play quietly).2.map Report.out
        = (untraced.messages quietly).map List.flatten := by
  intro traced untraced quietly
  have same : untraced = traced.silent := start_silent ..
  obtain ⟨final, reports⟩ := traced.play_silent commands
  refine ⟨?_, ?_, ?_, traced.out_play commands, untraced.out_play quietly⟩
  · rw [same, final]
  · rwa [same]
  · rw [same, traced.messages_silent commands]

-- A verbose store logs that a run took its lock and released it, and what it
-- stored; another logs only what was stored.
example :
    (start (fun _ => 0) { verbose := true } (fun _ => none) 0).messages
        [.call (.run [97] [98] none [] (.ok ⟨[], [99]⟩))]
      = [[utf8 "[lock-acquired] key=a holder=b\n", utf8 "[lock-released] key=a holder=b\n",
          utf8 "[txn-committed] key=a holder=b bytes=1\n"], []]
      ∧ (start (fun _ => 0) {} (fun _ => none) 0).messages
        [.call (.run [97] [98] none [] (.ok ⟨[], [99]⟩))]
      = [[utf8 "[txn-committed] key=a holder=b bytes=1\n"], []] := by
  decide +kernel

end Session

end AdvisoryStore
