import RegisterMachine.Proofs.Range

/-! Histories. A run begins with a reset, and a reset keeps nothing of a machine but its
configuration and the names of its registers. So whatever was done to a machine, a program gives on
it what it gives on a new one. -/
namespace RegisterMachine.Machine

/-- Puts any integer into a register by hand. A name that is not declared is refused, and then
nothing changes. -/
def put (m : Machine) (name : String) (value : Int) : Machine :=
  match m.registers.write name value with
  | .ok registers => { m with registers }
  | .error _ => m

/-- What can be done to a machine: a call, or a value put into a register without one. -/
inductive Action where
  | call (call : Call)
  | put (name : String) (value : Int)

def act (m : Machine) : Action → Machine
  | .call call => m.call call
  | .put name value => m.put name value

def actAll (m : Machine) (actions : List Action) : Machine := actions.foldl act m

@[simp] theorem actAll_cons (m : Machine) (action : Action) (actions : List Action) :
    m.actAll (action :: actions) = (m.act action).actAll actions := rfl

section
variable (m : Machine)

@[simp] theorem config_put (name : String) (value : Int) :
    (m.put name value).config = m.config := by
  unfold put
  split <;> rfl

@[simp] theorem running_put (name : String) (value : Int) :
    (m.put name value).running = m.running := by
  unfold put
  split <;> rfl

@[simp] theorem names_put (name : String) (value : Int) :
    (m.put name value).registers.names = m.registers.names := by
  unfold put Registers.write
  cases m.registers.get? name with
  | none => rfl
  | some old => exact Registers.names_set m.registers name value

@[simp] theorem config_act (action : Action) : (m.act action).config = m.config := by
  cases action <;> simp [act]

@[simp] theorem running_act (action : Action) : (m.act action).running = m.running := by
  cases action <;> simp [act]

@[simp] theorem names_act (action : Action) :
    (m.act action).registers.names = m.registers.names := by
  cases action <;> simp [act]

end

@[simp] theorem config_actAll (m : Machine) (actions : List Action) :
    (m.actAll actions).config = m.config := by
  induction actions generalizing m with
  | nil => rfl
  | cons action actions ih => simp [ih]

@[simp] theorem running_actAll (m : Machine) (actions : List Action) :
    (m.actAll actions).running = m.running := by
  induction actions generalizing m with
  | nil => rfl
  | cons action actions ih => simp [ih]

@[simp] theorem names_actAll (m : Machine) (actions : List Action) :
    (m.actAll actions).registers.names = m.registers.names := by
  induction actions generalizing m with
  | nil => rfl
  | cons action actions ih => simp [ih]

theorem run_congr {m m' : Machine} (config : m.config = m'.config)
    (names : m.registers.names = m'.registers.names) (idle : m.running = false)
    (idle' : m'.running = false) (source : String) : (m.run source).2 = (m'.run source).2 := by
  have zeros : m.registers.reset = m'.registers.reset := by
    rw [Registers.reset, Registers.reset, names]
  obtain ⟨steps, ending, walks⟩ := m.exists_walks source
  have walks' : m'.Walks source steps ending := by
    unfold Walks at *
    rwa [← config, ← zeros]
  cases ending with
  | finished status => rw [report_of_walks idle walks, report_of_walks idle' walks', zeros]
  | broken i e => rw [excess_of_walks idle walks, excess_of_walks idle' walks']

/-- Between any actions a machine is idle, and after them a program gives the report or the failure
that it gives on a new machine. Among the actions may be runs that were aborted or broke off, and
values put into registers that do not hold them. -/
theorem runs_do_not_leak (config : Config) (actions : List Action) (source : String) :
    (∀ earlier, earlier <+: actions → ((ofConfig config).actAll earlier).running = false) ∧
      (((ofConfig config).actAll actions).run source).1.running = false ∧
      (((ofConfig config).actAll actions).run source).2 = config.run source := by
  have idle (earlier : List Action) : ((ofConfig config).actAll earlier).running = false :=
    running_actAll _ earlier
  refine ⟨fun earlier _ => idle earlier, ?_, ?_⟩
  · rw [running_run, idle]
  · exact run_congr (config_actAll _ actions) (names_actAll _ actions) (idle actions) rfl source

end RegisterMachine.Machine
