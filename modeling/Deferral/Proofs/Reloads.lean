import Deferral.Proofs.LoadedConfigs
import Deferral.Proofs.ServerSteps
import Deferral.Watch.Watcher

/-! Reloads of a running server. What the watcher of the configuration file publishes is under way until the
server receives it, and other steps of the server come between as they please. -/

namespace Deferral

namespace Http.Server

variable {s next : Server} {result : Simulation.Result}

/-- Only a reload touches the table: all else goes on in the world of the responses and among the exchanges. -/
theorem table_of_run {action : Simulation.Action} (ran : s.run action = (next, result)) : next.table = s.table := by
  have same : (s.run action).1.table = s.table := rfl
  rwa [ran] at same

theorem abandon_table (s : Server) (r : Nat) : (s.abandon r).table = s.table := by
  rw [abandon]
  split
  · rfl
  · split
    case h_1 ran | h_2 ran =>
      have same := table_of_run ran
      exact same

theorem suspend_table (s : Server) (r : Nat) (route : String) (params : Params) :
    (s.suspend r route params).1.table = s.table := by
  rw [suspend]
  split
  case h_1 | h_3 => rfl
  case h_2 =>
    split
    case h_1 ran =>
      have same := table_of_run ran
      exact same
    case h_2 => rfl

theorem handleDeferred_table (s : Server) (request : Nat) (method : Method) (route : String) (params : Params) :
    (s.handleDeferred request method route params).1.table = s.table := by
  rw [handleDeferred]
  dsimp only
  split
  case h_1 m error suspends =>
    rw [abandon_table]
    have same := suspend_table ((s.run (.create 1 .log)).1.run (.register s.exchanges.length)).1 s.exchanges.length route params
    rw [suspends] at same
    exact same
  case h_2 m _ _ suspends =>
    have same := suspend_table ((s.run (.create 1 .log)).1.run (.register s.exchanges.length)).1 s.exchanges.length route params
    rw [suspends] at same
    exact same

theorem handleCancel_table (s : Server) (id : Uuid) : (s.handleCancel id).1.table = s.table := by
  rw [handleCancel]
  split
  · rfl
  · split
    case h_1 ran | h_2 ran | h_3 ran =>
      have same := table_of_run ran
      exact same

theorem handle_table (s : Server) (request : Request) : (s.handle request).1.table = s.table := by
  rw [handle]
  dsimp only
  split
  · rfl
  · split
    · rfl
    · rfl
    · exact handleCancel_table _ _
    · exact handleDeferred_table ..

theorem disconnect_table (s : Server) (request : Nat) : (s.disconnect request).table = s.table := by
  rw [disconnect]
  split
  · rfl
  · exact abandon_table _ _

theorem stop_table (s : Server) : s.stop.1.table = s.table := by
  rw [stop]
  split <;> rfl

theorem step_table (s : Server) (step : Step) : (s.step step).1.table = step.tableAfter s.table := by
  have delivered : (s.step step).1.table = (s.perform step).1.table :=
    (deliverAll_replied (s.perform step).1.settle _).table
  rw [delivered]
  cases step with
  | request request => exact handle_table s request
  | advance ms => rfl
  | disconnect request => exact disconnect_table s request
  | reload config => rfl
  | shutdown => exact stop_table s

end Http.Server

namespace Watch

open Config (FileError)

variable {w : Watcher} {notice : Notice} {content : Except FileError ByteArray} {config initial : ServiceConfig}

/-- The file was made, or modified in more than its metadata, under a path that ends in its name. -/
def Watcher.Concerned (w : Watcher) (change : Change) : Prop :=
  (change.kind = .create ∨ ∃ what, change.kind = .modify what ∧ what ≠ .metadata) ∧
    ∃ path ∈ change.paths, ∃ name, path.fileName? = some name ∧ w.path.fileName? = some name

/-- The file can be read, and its text describes a sound configuration. -/
def Describes (content : Except FileError ByteArray) (config : ServiceConfig) : Prop :=
  ∃ bytes document, content = .ok bytes ∧ String.fromUTF8? bytes = some document ∧
    Config.parse document = .ok config

def Watcher.Accepts (w : Watcher) (notice : Notice) (content : Except FileError ByteArray)
    (config : ServiceConfig) : Prop :=
  ∃ change, notice = .changed change ∧ w.Concerned change ∧ Describes content config

theorem matters_iff (kind : ChangeKind) :
    kind.matters = true ↔ kind = .create ∨ ∃ what, kind = .modify what ∧ what ≠ .metadata := by
  cases kind with
  | modify what => cases what <;> simp [ChangeKind.matters]
  | unspecified | access | create | remove | other => simp [ChangeKind.matters]

theorem touches_iff (change : Change) : w.touches change = true ↔ w.Concerned change := by
  have named (path : PathName) : (path.fileName?.isSome && path.fileName? == w.path.fileName?) = true ↔
      ∃ name, path.fileName? = some name ∧ w.path.fileName? = some name := by
    cases path.fileName? with
    | none => simp
    | some name =>
      refine ⟨fun same => ⟨name, rfl, ?_⟩, ?_⟩
      · exact (show some name = w.path.fileName? by simpa using same).symm
      · rintro ⟨other, same, ours⟩
        simp [same, ours]
  simp only [Watcher.touches, Watcher.Concerned, Bool.and_eq_true, matters_iff, List.any_eq_true, named]

theorem load_ok_iff : Config.load content = .ok config ↔ Describes content config := by
  cases content with
  | error e => simp [Config.load, Describes, Except.mapError, bind, Except.bind]
  | ok bytes =>
    cases text : String.fromUTF8? bytes with
    | none => simp [Config.load, Config.decodeBytes, Describes, text, Except.mapError, bind, Except.bind]
    | some document => simp [Config.load, Config.decodeBytes, Describes, text, Except.mapError, bind, Except.bind]

theorem receive_accepted (accepts : w.Accepts notice content config) : (w.receive notice content).2 = [config] := by
  obtain ⟨change, rfl, concerned, describes⟩ := accepts
  simp [Watcher.receive, Watcher.handle, (touches_iff change).mpr concerned, Watcher.reload,
    load_ok_iff.mpr describes, Reload.published?]

theorem receive_ignored (ignores : ∀ config, ¬ w.Accepts notice content config) :
    (w.receive notice content).2 = [] := by
  cases notice with
  | failed error => rfl
  | changed change =>
    cases touched : w.touches change with
    | false => simp [Watcher.receive, Watcher.handle, touched]
    | true =>
      cases loaded : Config.load content with
      | error e => simp [Watcher.receive, Watcher.handle, touched, Watcher.reload, loaded, Reload.published?]
      | ok config => exact absurd ⟨change, rfl, (touches_iff change).mp touched, load_ok_iff.mp loaded⟩ (ignores config)

/-- A server and what the watcher of its configuration file published for it. -/
structure Watched where
  server : Http.Server
  /-- Published and not received yet, in the order of publication. -/
  underWay : List ServiceConfig := []

inductive Event where
  /-- The watcher is told something while the file has a certain content. -/
  | noticed (notice : Notice) (content : Except FileError ByteArray)
  | received (config : ServiceConfig)
  | served (step : Http.Server.Step)

def Event.notice? : Event → Option (Notice × Except FileError ByteArray)
  | .noticed notice content => some (notice, content)
  | _ => none

def Event.reception? : Event → Option ServiceConfig
  | .received config => some config
  | _ => none

namespace Watched

/-- One event. The server takes new policies from the watcher only. -/
inductive Step (w : Watcher) : Watched → Event → Watched → Prop where
  | noticed (s : Watched) (notice : Notice) (content : Except FileError ByteArray) :
    Step w s (.noticed notice content)
      ⟨(w.receive notice content).1.foldl .record s.server, s.underWay ++ (w.receive notice content).2⟩
  | received (server : Http.Server) (config : ServiceConfig) (rest : List ServiceConfig) :
    Step w ⟨server, config :: rest⟩ (.received config) ⟨(server.step (.reload config)).1, rest⟩
  | served (s : Watched) (step : Http.Server.Step) (own : ∀ config, step ≠ .reload config) :
    Step w s (.served step) ⟨(s.server.step step).1, s.underWay⟩

inductive Run (w : Watcher) (first : Watched) : List Event → Watched → Prop where
  | start : Run w first [] first
  | next {events : List Event} {s s' : Watched} {event : Event} (run : Run w first events s) (step : Step w s event s') :
    Run w first (events ++ [event]) s'

variable {s s' first : Watched} {event : Event} {events : List Event}

theorem record_all_table (server : Http.Server) (log : List LogEvent) :
    (log.foldl .record server).table = server.table := by
  induction log generalizing server with
  | nil => rfl
  | cons event rest ih => exact ih (server.record event)

theorem Step.table (step : Step w s event s') :
    s'.server.table = (event.reception?.map PolicyTable.ofConfig).getD s.server.table := by
  cases step with
  | noticed _ notice content => exact record_all_table ..
  | received server config rest => exact Http.Server.step_table server (.reload config)
  | served _ step own =>
    rw [Http.Server.step_table]
    cases step with
    | reload config => exact absurd rfl (own config)
    | request | advance | disconnect | shutdown => rfl

end Watched

/-- The configurations to be published at a series of notices: in their order one for each that the
watcher accepts. -/
inductive Publishes (w : Watcher) : List (Notice × Except FileError ByteArray) → List ServiceConfig → Prop where
  | nil : Publishes w [] []
  | accepted {notices : List (Notice × Except FileError ByteArray)} {configs : List ServiceConfig} {notice : Notice}
      {content : Except FileError ByteArray} {config : ServiceConfig} (before : Publishes w notices configs)
      (accepts : w.Accepts notice content config) :
    Publishes w (notices ++ [(notice, content)]) (configs ++ [config])
  | ignored {notices : List (Notice × Except FileError ByteArray)} {configs : List ServiceConfig} {notice : Notice}
      {content : Except FileError ByteArray} (before : Publishes w notices configs)
      (ignores : ∀ config, ¬ w.Accepts notice content config) :
    Publishes w (notices ++ [(notice, content)]) configs

theorem Publishes.valid {notices : List (Notice × Except FileError ByteArray)} {configs : List ServiceConfig}
    (publishes : Publishes w notices configs) : ∀ config ∈ configs, Config.validate config = [] := by
  induction publishes with
  | nil => simp
  | accepted before accepts ih =>
    obtain ⟨change, -, -, bytes, document, -, -, parsed⟩ := accepts
    obtain ⟨tree, -, -, sound⟩ := Config.parse_ok_iff.mp parsed
    intro config among
    rcases List.mem_append.mp among with early | last
    · exact ih config early
    · rwa [List.mem_singleton.mp last]
  | ignored before ignores ih => exact ih

theorem Publishes.receive {notices : List (Notice × Except FileError ByteArray)} {configs : List ServiceConfig}
    (before : Publishes w notices configs) (notice : Notice) (content : Except FileError ByteArray) :
    Publishes w (notices ++ [(notice, content)]) (configs ++ (w.receive notice content).2) := by
  by_cases accepted : ∃ config, w.Accepts notice content config
  · obtain ⟨config, accepts⟩ := accepted
    rw [receive_accepted accepts]
    exact before.accepted accepts
  · have ignores : ∀ config, ¬ w.Accepts notice content config := not_exists.mp accepted
    rw [receive_ignored ignores, List.append_nil]
    exact before.ignored ignores

namespace Watched

variable {first s : Watched} {events : List Event}

/-- What was received and what is under way are what had to be published, nothing lost or out of order. -/
theorem Run.published (run : Run w first events s) (fresh : first.underWay = []) :
    Publishes w (events.filterMap Event.notice?) (events.filterMap Event.reception? ++ s.underWay) := by
  induction run with
  | start =>
    rw [fresh]
    exact .nil
  | next run step ih =>
    rw [List.filterMap_append, List.filterMap_append]
    cases step with
    | noticed _ notice content =>
      have grown := ih.receive notice content
      rw [List.append_assoc] at grown
      simpa [List.filterMap_cons, Event.notice?, Event.reception?] using grown
    | received server config rest => simpa [List.filterMap_cons, Event.notice?, Event.reception?] using ih
    | served _ step own => simpa [List.filterMap_cons, Event.notice?, Event.reception?] using ih

theorem Run.table (run : Run w first events s) :
    s.server.table = ((events.filterMap Event.reception?).getLast?.map PolicyTable.ofConfig).getD first.server.table := by
  induction run with
  | start => rfl
  | @next events m s event before step ih =>
    rw [step.table, List.filterMap_append, ih]
    cases received : event.reception? with
    | none => simp [received]
    | some config => simp [received]

end Watched

/-- The watcher publishes the sound configurations it finds at the changes that concern it, all of them and in
their order, and nothing else; new requests are served by the last one that the server received. A notice of any
other kind, or one at which no sound configuration is found, changes neither the table nor what is under way. -/
theorem published_and_served {address : String} {s : Watched} {events : List Event}
    (run : Watched.Run w ⟨.start address initial, []⟩ events s) :
    Publishes w (events.filterMap Event.notice?) (events.filterMap Event.reception? ++ s.underWay) ∧
      (∀ config ∈ events.filterMap Event.reception? ++ s.underWay, Config.validate config = []) ∧
      s.server.table = .ofConfig ((events.filterMap Event.reception?).getLast?.getD initial) ∧
      ∀ notice content s', Watched.Step w s (.noticed notice content) s' →
        (∀ config, ¬ w.Accepts notice content config) → s'.server.table = s.server.table ∧ s'.underWay = s.underWay := by
  have published := run.published rfl
  refine ⟨published, published.valid, ?_, ?_⟩
  · rw [run.table]
    cases (events.filterMap Event.reception?).getLast? <;> rfl
  · intro notice content s' step ignores
    refine ⟨step.table, ?_⟩
    cases step with
    | noticed => rw [receive_ignored ignores, List.append_nil]

/-- The file is made, the server receives what it describes, and then the file becomes unreadable. -/
theorem published_and_served_created :
    let w : Watcher := ⟨⟨"config.toml"⟩⟩
    let change : Change := ⟨.create, [⟨"config.toml"⟩]⟩
    ∃ s, Watched.Run w ⟨.start "127.0.0.1:8080" {}, []⟩
        [.noticed (.changed change) (.ok twoRoutes.toUTF8), .received twoRoutesConfig,
          .noticed (.changed change) (.error .notFound)] s ∧
      s.server.table = .ofConfig twoRoutesConfig := by
  intro w change
  have concerned : w.Concerned change := (touches_iff change).mp (by decide +kernel)
  have describes : Describes (.ok twoRoutes.toUTF8) twoRoutesConfig :=
    ⟨_, twoRoutes, rfl, dif_pos twoRoutes.isValidUTF8, parse_twoRoutes⟩
  have made := Watched.Step.noticed (w := w) ⟨.start "127.0.0.1:8080" {}, []⟩ (.changed change) (.ok twoRoutes.toUTF8)
  rw [receive_accepted ⟨change, rfl, concerned, describes⟩] at made
  have run := ((Watched.Run.start.next made).next (.received _ _ [])).next (.noticed _ (.changed change) (.error .notFound))
  exact ⟨_, run, (published_and_served run).2.2.1⟩

end Watch
end Deferral
