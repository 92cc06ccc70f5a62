import DataAccess.Background.Drive
import DataAccess.Proofs.Background.Launched
import DataAccess.Proofs.Database.Signals
import DataAccess.Proofs.Reading.Meaning

/-!
This module contains what arrives of a body that was handed over to the background. Main statement: a future
becomes ready with what the body comes to, a suspended call reports it, and a stream gives it as an item, or
gives no item for nothing.
-/

namespace DataAccess

def ReadValue.item? {τ : Type} {Val : τ → Type} : ReadValue Val → Option (ReadValue Val)
  | .just v => some v
  | _ => none

def StreamPoll.item? : StreamPoll α → Option (Except Fault α)
  | .item r => some r
  | _ => none

def streamed : Except Fault (Option α) → Option (Except Fault α)
  | .ok v => v.map .ok
  | .error f => some (.error f)

namespace Surroundings.Handover

variable {τ : Type} {Val : τ → Type}

def operation (h : Handover σ α Val) (make : ReadValue Val → β) (n : Nat) : Operation σ β :=
  fun db =>
    match h.run n db with
    | some (v, p) => (.ofExcept (v.map make), p.db)
    | none => (.crash, db)

def outcome (h : Handover σ α Val) (e : Engine σ stmt) (make : ReadValue Val → β) (n : Nat)
    (db : Database σ) : Except Fault β :=
  (Database.runIn e h.inTransaction (h.operation make n) db).1.result

/-- What the body comes to arrives with its caller, if nothing else goes on in the background. -/
def Arrives (h : Handover σ α Val) (e : Engine σ stmt) (b : Background σ (ReadValue Val)) : Prop :=
  let signal := b.database.cancellation.signals.length
  match h.delivery with
  | .direct => True
  | .future =>
    let (number, b) := b.createFuture e h.inTransaction (h.operation id)
    ((b.runFuture number).pollFuture number).1 = .ready (h.outcome e id signal b.database)
  | .suspend => ∀ name : String,
    let (number, b) := b.launch e name h.inTransaction (h.operation id)
    ((((b.startCall number).runCall number).deliver number).takeEvents number).1 =
      [.cancellable false, Background.report (h.outcome e id signal b.database)]
  | .stream =>
    let (number, b) := b.createStream e h.inTransaction h.tables fun _ => h.operation ReadValue.item? 0
    ((((b.pollStream number).2.runStream number).pollStream number).1).item? =
      streamed (h.outcome e ReadValue.item? 0 b.database)

end Surroundings.Handover

namespace Background

variable {b : Background σ α} (e : Engine σ stmt) (inTransaction : Bool)

theorem signalledWork_of_unset (e : Engine σ stmt) (inTransaction : Bool) {signal : Nat}
    (body : Nat → Operation σ α) {db : Database σ} (hsignal : db.cancellation.isSet signal = false)
    : signalledWork e inTransaction signal body db = Database.runIn e inTransaction (body signal) db := by
  rw [signalledWork_eq, hsignal]
  rfl

theorem getElem?_runFuture {number : Nat} {f : QueryFuture σ α} {work : Operation σ α}
    (hf : b.futures[number]? = some f) (haborted : f.aborted = false) (hwork : f.work = some work)
    : (b.runFuture number).futures[number]? =
        some { f with reply := .arrived (work b.database).1.result } := by
  obtain ⟨hlt, _⟩ := List.getElem?_eq_some_iff.1 hf
  unfold runFuture
  rw [hf]
  dsimp only
  rw [haborted, if_neg Bool.false_ne_true, hwork]
  exact List.getElem?_set_self hlt

theorem pollFuture_of_arrived {number : Nat} {f : QueryFuture σ α} {r : Except Fault α}
    (hf : b.futures[number]? = some f) (hreply : f.reply = .arrived r)
    : (b.pollFuture number).1 = .ready r := by
  unfold pollFuture
  rw [hf]
  dsimp only
  rw [hreply]

theorem pollFuture_of_createFuture (body : Nat → Operation σ α) (hexecutor : b.executor = true)
    : let (number, b') := b.createFuture e inTransaction body
      ((b'.runFuture number).pollFuture number).1 =
        .ready (Database.runIn e inTransaction (body b.database.cancellation.signals.length)
          b'.database).1.result := by
  unfold createFuture
  dsimp only
  rw [if_pos hexecutor, if_pos hexecutor]
  apply pollFuture_of_arrived (getElem?_runFuture List.getElem?_concat_length rfl rfl)
  refine congrArg (fun r : Outcome α × Database σ => Reply.arrived r.1.result) ?_
  exact signalledWork_of_unset e inTransaction body b.database.cancellation.isSet_newSignal

theorem takeEvents_of_scheduled {l : LaunchedCall σ stmt α}
    (h : b.calls[l.number]? = some (l.call .scheduled [.cancellable false]))
    (hunset : b.database.cancellation.isSet l.signal = false)
    : ((((b.startCall l.number).runCall l.number).deliver l.number).takeEvents l.number).1 =
        [.cancellable false, report (l.result (l.body l.signal) b.database)] := by
  let working := (b.setCall l.number (l.call .working [.cancellable false])).enqueue (.call l.number)
  have hworking : working.calls[l.number]? = some (l.call .working [.cancellable false]) :=
    getElem?_setCall h
  have hdone : (working.runBody l (l.body l.signal)).calls[l.number]? =
      some (l.call (.done (l.result (l.body l.signal) b.database)) [.cancellable false]) :=
    getElem?_setCall hworking
  have hset : ¬b.database.cancellation.isSet l.signal = true := ne_true_of_eq_false hunset
  have hstill : ¬working.database.cancellation.isSet l.signal = true := hset
  have hreported : ((working.runBody l (l.body l.signal)).deliver l.number).calls[l.number]? =
      some (l.call .over [.cancellable false, report (l.result (l.body l.signal) b.database)]) := by
    rw [deliver_eq hdone]
    exact getElem?_setCall hdone
  rw [startCall_eq h, if_neg hset, runCall_of_working hworking, if_neg hstill]
  unfold takeEvents
  rw [hreported]
  rfl

theorem takeEvents_of_launch (name : String) (body : Nat → Operation σ α) (hexecutor : b.executor = true)
    : let (number, b') := b.launch e name inTransaction body
      ((((b'.startCall number).runCall number).deliver number).takeEvents number).1 =
        [.cancellable false, report (Database.runIn e inTransaction
          (body b.database.cancellation.signals.length) b'.database).1.result] := by
  have hdispatcher : b.dispatcher = true := by simp [dispatcher, hexecutor]
  rw [launch_eq e name inTransaction body hdispatcher]
  apply takeEvents_of_scheduled (l := ⟨e, inTransaction, body, b.calls.length,
    b.database.cancellation.signals.length, b.database.cancellation.handles.length⟩)
  . exact List.getElem?_concat_length
  . exact b.database.cancellation.isSet_newSignal

theorem item?_rerun (number : Nat) (hexecutor : b.executor = true) : (b.rerun number).1.item? = none := by
  unfold rerun
  dsimp only
  split
  . unfold startRun
    rw [if_pos hexecutor]
    rfl
  . rfl
  . rfl

theorem streams_setStage {number : Nat} {s : QueryStream σ α} (hs : b.streams[number]? = some s)
    (stage : StreamStage α) : (b.setStage number stage).streams[number]? = some { s with stage } := by
  unfold setStage
  rw [List.getElem?_modify_eq, hs]
  rfl

theorem pollStream_of_fresh {number : Nat} {s : QueryStream σ α} (hexecutor : b.executor = true)
    (hs : b.streams[number]? = some s) (hstage : s.stage = .fresh)
    : (((b.pollStream number).2.runStream number).pollStream number).1.item? =
        streamed (s.work s.runs b.database).1.result := by
  let running := (b.setStage number .running).enqueue (.stream number)
  have hasked : (b.pollStream number).2 = running := by
    unfold pollStream
    rw [hs]
    dsimp only
    rw [hstage]
    dsimp only [startRun]
    rw [if_pos hexecutor]
  have hrunning : running.streams[number]? = some { s with stage := .running } :=
    streams_setStage hs .running
  have hran : (running.runStream number).executor = true ∧
      (running.runStream number).streams[number]? = some { s with
        runs := s.runs + 1, stage := .ran (s.work s.runs b.database).1.result } := by
    obtain ⟨hlt, _⟩ := List.getElem?_eq_some_iff.1 hrunning
    unfold runStream
    rw [hrunning]
    exact ⟨hexecutor, List.getElem?_set_self hlt⟩
  obtain ⟨hexecutor', hran⟩ := hran
  rw [hasked]
  unfold pollStream
  rw [hran]
  dsimp only
  cases (s.work s.runs b.database).1.result with
  | error f => rfl
  | ok found =>
    cases found with
    | none => exact item?_rerun number hexecutor'
    | some a => rfl

theorem pollStream_of_createStream (tables : List String) (work : Nat → Operation σ (Option α))
    (hexecutor : b.executor = true)
    : let (number, b') := b.createStream e inTransaction tables work
      ((((b'.pollStream number).2.runStream number).pollStream number).1).item? =
        streamed (Database.runIn e inTransaction (work 0) b'.database).1.result := by
  have hexecutor' : (b.createStream e inTransaction tables work).2.executor = true := hexecutor
  have hs : (b.createStream e inTransaction tables work).2.streams[b.streams.length]? =
      some ⟨fun run => Database.runIn e inTransaction (work run), 0, .fresh⟩ :=
    List.getElem?_concat_length
  exact pollStream_of_fresh hexecutor' hs rfl

end Background

theorem Surroundings.Handover.arrives {τ : Type} {Val : τ → Type} (h : Handover σ α Val)
    (e : Engine σ stmt) {b : Background σ (ReadValue Val)} (hexecutor : b.executor = true)
    : h.Arrives e b := by
  unfold Arrives
  cases h.delivery with
  | direct => trivial
  | future => exact Background.pollFuture_of_createFuture e h.inTransaction (h.operation id) hexecutor
  | suspend =>
    exact fun name => Background.takeEvents_of_launch e h.inTransaction name (h.operation id) hexecutor
  | stream =>
    exact Background.pollStream_of_createStream e h.inTransaction h.tables
      (fun _ => h.operation ReadValue.item? 0) hexecutor

end DataAccess
