import MysqlPlugin.HostHistory

namespace MysqlPlugin

/-- Whether the global connectionController points to something, and where
Unload is in the destructor of what it points to. -/
inductive Phase
  | absent
  | loaded
  | unloading (remaining : List (UInt32 × Nat))

/-- The globals over the time that the server is up. The singleton of the results
is never deleted. -/
structure Process where
  plugin : Plugin
  phase : Phase

inductive ProcessAction
  | load
  | unload
  | resume
  | plugin (action : PluginAction)

inductive ProcessEvent
  | loaded
  | unloadStarted
  | unloaded
  | plugin (event : PluginEvent)

namespace Process

def new : Process := ⟨.new, .absent⟩

def load (process : Process) : Process :=
  ⟨{ process.plugin with connectionController := .new, statementRegistry := .new }, .loaded⟩

/-- Unload up to the loop of the destructor of ConnectionController. -/
def unload (process : Process) : Process :=
  { process with phase := .unloading process.plugin.connectionController.connections.toList }

/-- The deletion of one host. Unlike onScriptUnload the loop leaves the map as it is. -/
def delete (plugin : Plugin) (connectionId : UInt32) (pointer : Nat)
    (remaining : List (UInt32 × Nat)) : Option (Process × ProcessEvent) :=
  match plugin.hosts[pointer]? with
  | none => some (⟨plugin.crash, .unloading remaining⟩, .plugin .useAfterFree)
  | some host =>
      if host.deleted then some (⟨plugin.crash, .unloading remaining⟩, .plugin .useAfterFree)
      else if host.client.isRunning then
        (plugin.touch pointer
            (if host.client.requestShutdown then .joinThread else .stopThread)).map
          fun (plugin, event) =>
            (⟨plugin, .unloading ((connectionId, pointer) :: remaining)⟩,
              .plugin (.host pointer event))
      else
        (plugin.touch pointer .destroy).map fun (plugin, event) =>
          (⟨plugin, .unloading remaining⟩, .plugin (.host pointer event))

/-- The server calls Unload while the plugin does nothing. Client threads move in
every phase in which they are there. -/
def step (lib : Externals) : Transition.Machine Process ProcessAction ProcessEvent :=
  fun process action =>
    match process.phase, action with
    | .absent, .load => some (process.load, .loaded)
    | .loaded, .plugin action =>
        (Plugin.step lib process.plugin action).map fun (plugin, event) =>
          (⟨plugin, .loaded⟩, .plugin event)
    | .loaded, .unload =>
        match process.plugin.task, process.plugin.iterator with
        | .idle, none => some (process.unload, .unloadStarted)
        | _, _ => none
    | phase, .plugin (.client pointer input) =>
        match process.plugin.task with
        | .crashed => none
        | _ => (process.plugin.clientStep pointer input).map fun (plugin, event) =>
            (⟨plugin, phase⟩, .plugin event)
    | .unloading remaining, .resume =>
        match process.plugin.task, remaining with
        | .crashed, _ => none
        | _, [] => some (⟨process.plugin, .absent⟩, .unloaded)
        | _, (connectionId, pointer) :: remaining =>
            delete process.plugin connectionId pointer remaining
    | _, _ => none

end Process

inductive ProcessStep (lib : Externals) (s : Process) : ProcessAction → ProcessEvent → Process → Prop
  | load (hp : s.phase = .absent) : ProcessStep lib s .load .loaded s.load
  | plugin (action : PluginAction) (event : PluginEvent) (plugin : Plugin) (hp : s.phase = .loaded)
      (hs : Plugin.step lib s.plugin action = some (plugin, event)) :
      ProcessStep lib s (.plugin action) (.plugin event) ⟨plugin, .loaded⟩
  | unload (hp : s.phase = .loaded) (ht : s.plugin.task = .idle) :
      ProcessStep lib s .unload .unloadStarted s.unload
  | client (pointer : Nat) (input : ClientInput) (event : PluginEvent) (plugin : Plugin)
      (hp : s.phase ≠ .loaded) (hs : PluginStep s.plugin (.client pointer input) event plugin) :
      ProcessStep lib s (.plugin (.client pointer input)) (.plugin event) ⟨plugin, s.phase⟩
  | halt (connectionId : UInt32) (pointer : Nat) (remaining : List (UInt32 × Nat))
      (h h' : ConnectionHost) (a : HostAction) (e : HostEvent)
      (hp : s.phase = .unloading ((connectionId, pointer) :: remaining))
      (ha : a = .stopThread ∨ a = .joinThread)
      (hh : s.plugin.hosts[pointer]? = some h) (hs : ConnectionHost.step h a = some (h', e)) :
      ProcessStep lib s .resume (.plugin (.host pointer e))
        ⟨{ s.plugin with hosts := s.plugin.hosts.set pointer h' }, s.phase⟩
  | destroy (connectionId : UInt32) (pointer : Nat) (remaining : List (UInt32 × Nat))
      (h h' : ConnectionHost) (e : HostEvent)
      (hp : s.phase = .unloading ((connectionId, pointer) :: remaining))
      (hh : s.plugin.hosts[pointer]? = some h)
      (hs : ConnectionHost.step h .destroy = some (h', e)) :
      ProcessStep lib s .resume (.plugin (.host pointer e))
        ⟨{ s.plugin with hosts := s.plugin.hosts.set pointer h' }, .unloading remaining⟩
  | stale (connectionId : UInt32) (pointer : Nat) (remaining : List (UInt32 × Nat))
      (hp : s.phase = .unloading ((connectionId, pointer) :: remaining))
      (hh : ∀ h, s.plugin.hosts[pointer]? = some h → h.deleted = true) :
      ProcessStep lib s .resume (.plugin .useAfterFree) ⟨s.plugin.crash, .unloading remaining⟩
  | unloaded (hp : s.phase = .unloading []) :
      ProcessStep lib s .resume .unloaded ⟨s.plugin, .absent⟩

theorem processStep_of_delete {lib : Externals} {s s' : Process} {e : ProcessEvent}
    {connectionId : UInt32} {pointer : Nat} {remaining : List (UInt32 × Nat)}
    (hp : s.phase = .unloading ((connectionId, pointer) :: remaining))
    (h : Process.delete s.plugin connectionId pointer remaining = some (s', e)) :
    ProcessStep lib s .resume e s' := by
  unfold Process.delete at h
  split at h
  next hn =>
    cases h
    exact .stale connectionId pointer remaining hp fun host hh => by simp [hn] at hh
  next host hh =>
    split_ifs at h with hd hr hq
    · cases h
      refine .stale connectionId pointer remaining hp fun host' hh' => ?_
      cases hh.symm.trans hh'
      exact hd
    · obtain ⟨⟨s₁, e₁⟩, hq', he⟩ := Option.map_eq_some_iff.mp h
      obtain ⟨host₁, host', hh', hs, rfl⟩ := touch_eq_some hq'
      cases he
      exact hp ▸ .halt connectionId pointer remaining host₁ host' _ e₁ hp (.inr rfl) hh' hs
    · obtain ⟨⟨s₁, e₁⟩, hq', he⟩ := Option.map_eq_some_iff.mp h
      obtain ⟨host₁, host', hh', hs, rfl⟩ := touch_eq_some hq'
      cases he
      exact hp ▸ .halt connectionId pointer remaining host₁ host' _ e₁ hp (.inl rfl) hh' hs
    · obtain ⟨⟨s₁, e₁⟩, hq', he⟩ := Option.map_eq_some_iff.mp h
      obtain ⟨host₁, host', hh', hs, rfl⟩ := touch_eq_some hq'
      cases he
      exact .destroy connectionId pointer remaining host₁ host' e₁ hp hh' hs

theorem processStep_of_step {lib : Externals} {s s' : Process} {a : ProcessAction} {e : ProcessEvent}
    (h : Process.step lib s a = some (s', e)) : ProcessStep lib s a e s' := by
  unfold Process.step at h
  split at h
  next hp => cases h; exact .load hp
  next action hp =>
    obtain ⟨⟨plugin, event⟩, hs, he⟩ := Option.map_eq_some_iff.mp h
    cases he
    exact .plugin action event plugin hp hs
  next hp =>
    split at h
    next ht _ => cases h; exact .unload hp ht
    next => cases h
  next phase pointer input hn =>
    split at h
    next => cases h
    next =>
      obtain ⟨⟨plugin, event⟩, hs, he⟩ := Option.map_eq_some_iff.mp h
      cases he
      exact .client pointer input event plugin (by simpa using hn) (pluginStep_of_clientStep hs)
  next remaining hp =>
    split at h
    next => cases h
    next => cases h; exact .unloaded hp
    next connectionId pointer rest _ => exact processStep_of_delete hp h
  next => cases h

end MysqlPlugin
