import ArbitroRaft.Machine.Action

/-!
# Runs of a node

A process takes actions, each in an environment of its own, and may crash
between two of them and come back from its storage.  A crash in the middle of a
vote, a campaign or an append needs no event of its own: it leaves the storage
that the same action leaves when the write or the send behind the crash fails.
-/

namespace ArbitroRaft

/-- The node in the environment of its next action. -/
def RaftNode.within (n : RaftNode) (env : Env) : RaftNode := { n with env := env }

inductive Event where
  | act (env : Env) (a : Action)
  | restart (env : Env) (config : NodeConfig)

namespace Event

/-- The process after an event; a restart keeps storage, the frames on the wire
and the node's identity. -/
def next (e : Event) (n : RaftNode) : Option RaftNode :=
  match e with
  | act env a => some (a.run (n.within env))
  | restart env config =>
    if config.nodeId = n.config.nodeId then
      (RaftNode.new config n.storage n.sent env).toOption
    else none

def nextAll : List Event → RaftNode → Option RaftNode
  | [], n => some n
  | e :: es, n => (e.next n).bind (nextAll es)

end Event

/-- A step whose event meets `ok` in the state it starts from. -/
def NodeStep (ok : RaftNode → Event → Prop) (n n' : RaftNode) : Prop :=
  ∃ e, ok n e ∧ e.next n = some n'

abbrev NodeRun (ok : RaftNode → Event → Prop) : RaftNode → RaftNode → Prop :=
  Relation.ReflTransGen (NodeStep ok)

/-- A process that was just started on some storage. -/
def Booted (n : RaftNode) : Prop :=
  ∃ config storage env, RaftNode.new config storage [] env = .ok n

variable {ok : RaftNode → Event → Prop} {P : RaftNode → Prop}

theorem NodeRun.act (env : Env) (a : Action) {n : RaftNode} (h : ok n (.act env a)) :
    NodeRun ok n (a.run (n.within env)) :=
  Relation.ReflTransGen.single ⟨_, h, rfl⟩

/-- What every step preserves holds in every reached state. -/
theorem NodeRun.invariant {n n' : RaftNode} (h : NodeRun ok n n') (hn : P n)
    (hstep : ∀ m e m', P m → ok m e → e.next m = some m' → P m') : P n' := by
  induction h with
  | refl => exact hn
  | tail _ hs ih =>
    obtain ⟨e, hok, hnext⟩ := hs
    exact hstep _ e _ ih hok hnext

/-- What every effect of an action preserves the action preserves. -/
theorem Action.preserves {a : Action} {n : RaftNode} (hn : P n)
    (heff : ∀ m m', P m → Effect (a.scope n False) m m' → P m') : P (a.run n) := by
  have hchain := a.chain n
  generalize a.run n = n' at hchain
  induction hchain with
  | refl => exact hn
  | tail _ he ih => exact heff _ _ ih he

theorem Event.next_restart {env : Env} {config : NodeConfig} {n n' : RaftNode}
    (h : (Event.restart env config).next n = some n') :
    config.nodeId = n.config.nodeId ∧
      n' = RaftNode.fromStorage config n.storage n.sent env := by
  unfold Event.next at h
  dsimp only at h
  split at h
  · rename_i hid
    exact ⟨hid, RaftNode.new_toOption h⟩
  · cases h

theorem Booted.eq {n : RaftNode} (h : Booted n) :
    ∃ config storage env, n = RaftNode.fromStorage config storage [] env := by
  obtain ⟨config, storage, env, hnew⟩ := h
  exact ⟨config, storage, env, RaftNode.new_eq hnew⟩

/-! ## Three voters -/

/-- Configuration of node `id` among the voters 1, 2 and 3. -/
def trioConfig (id : PeerId) : NodeConfig :=
  { nodeId := id
    peers := [1, 2, 3]
    learners := []
    bootstrapPeers := [1, 2, 3]
    timing := TimingConfig.initial
    limits := LimitsConfig.initial }

/-- Node `id` of the three, started on the storage `s`. -/
def trioNode (id : PeerId) (s : Storage) : RaftNode :=
  RaftNode.fromStorage (trioConfig id) s [] (Env.calm 0)

theorem booted_trioNode_one (s : Storage) : Booted (trioNode 1 s) :=
  ⟨trioConfig 1, s, Env.calm 0, rfl⟩

/-- A snapshot through index 20 and the entries behind it. -/
def retainedTail : Storage :=
  { hardState := ⟨1, none⟩
    entries := [⟨1, 21, [7]⟩, ⟨1, 22, [7]⟩, ⟨1, 23, [7]⟩, ⟨1, 24, [7]⟩, ⟨1, 25, [7]⟩]
    snapshot := some (⟨20, 1⟩, [])
    seeded := false }

end ArbitroRaft
