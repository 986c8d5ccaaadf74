import Caneo.Config

/-!
# `setup_interfaces`

Before a mode is started, the interfaces of the configuration are brought up with iproute2
(`src/setup/InterfaceSetup.cpp`, `src/main.cpp`). Interfaces on a virtual bus are created if they
are missing; those of a real bus that are missing are skipped. The first command that fails ends the
set-up with an exception.

What the commands do is documented (`IpLink`): each concerns the interface that it names. So one
interface is set up without touching the others (`sets_interfaceSetup`), and a set-up that returns
has made every interface ready and can be repeated without a further command (`interfaces_set_up`).
-/

namespace Caneo

/-- The kernel's interfaces and the shell. -/
structure Machine (σ : Type) where
  /-- 0 if there is no such interface. -/
  ifNametoindex : σ → String → Nat
  /-- The first word of `/sys/class/net/<name>/operstate`, if the file can be read. -/
  operstate : σ → String → Option String
  /-- `std::system`, with the exit status. -/
  system : σ → String → σ × Int

namespace Machine

variable {σ : Type} (m : Machine σ)

def interfaceExists (os : σ) (name : String) : Bool := m.ifNametoindex os name ≠ 0

def interfaceIsUp (os : σ) (name : String) : Bool :=
  match m.operstate os name with
  | some state => state = "up" || state = "unknown"
  | none => false

end Machine

/-! ### The commands -/

def modprobeCommand : String := "sudo modprobe vcan"

def addCommand (name : String) : String := "sudo ip link add dev " ++ name ++ " type vcan"

def upCommand (name : String) : String := "sudo ip link set up " ++ name

def bitrateCommand (name : String) (baudrate : BitVec 32) : String :=
  "sudo ip link set " ++ name ++ " type can bitrate " ++ toString baudrate.toNat

/-- A set-up under way: what it has printed and run, and the exception that ended it. -/
structure Setup (σ : Type) where
  os : σ
  printed : List String := []
  commands : List String := []
  error : Option String := none

namespace Setup

variable {σ : Type} (m : Machine σ)

/-- The next statement, unless an exception has been thrown. -/
def andThen (s : Setup σ) (f : Setup σ → Setup σ) : Setup σ := if s.error = none then f s else s

def print (s : Setup σ) (line : String) : Setup σ := { s with printed := s.printed ++ [line] }

def run (s : Setup σ) (cmd : String) : Setup σ :=
  let ran := m.system s.os cmd
  { os := ran.1
    printed := s.printed ++ ["  $ " ++ cmd]
    commands := s.commands ++ [cmd]
    error := if ran.2 ≠ 0 then some ("Command failed: " ++ cmd) else none }

/-- The body of the loop for a virtual bus. -/
def virtualInterface (iface : ConfiguredInterface) (s : Setup σ) : Setup σ :=
  let added := if !m.interfaceExists s.os iface.name then s.run m (addCommand iface.name) else s
  added.andThen fun s =>
    if !m.interfaceIsUp s.os iface.name then s.run m (upCommand iface.name) else s

/-- The body of the loop for real buses. -/
def realInterface (iface : ConfiguredInterface) (s : Setup σ) : Setup σ :=
  if !m.interfaceExists s.os iface.name then
    s.print ("Warning: interface " ++ iface.name ++ " not found, skipping.")
  else if m.interfaceIsUp s.os iface.name then
    s.print ("  " ++ iface.name ++ " is already up, skipping.")
  else
    let configured := if 0 < iface.baudrate then
      s.run m (bitrateCommand iface.name iface.baudrate) else s
    configured.andThen fun s => s.run m (upCommand iface.name)

def interfaceSetup (virtualCan : Bool) (iface : ConfiguredInterface) (s : Setup σ) : Setup σ :=
  if virtualCan then s.virtualInterface m iface else s.realInterface m iface

def interfaces (virtualCan : Bool) (s : Setup σ) (ifaces : List ConfiguredInterface) : Setup σ :=
  ifaces.foldl (fun s iface => s.andThen (interfaceSetup m virtualCan iface)) s

end Setup

def setupInterfaces {σ : Type} (m : Machine σ) (cfg : Config) (os : σ) : Setup σ :=
  let start : Setup σ := { os := os }
  let loaded := if cfg.virtualCan then start.run m modprobeCommand else start
  loaded.interfaces m cfg.virtualCan cfg.interfaces

/-! ### The commands and their exit statuses -/

namespace Machine

variable {σ : Type} (m : Machine σ)

/-- What these commands leave, and their exit statuses. -/
def systems (os : σ) (cmds : List String) : σ × List Int :=
  cmds.foldl (fun (os, codes) cmd => ((m.system os cmd).1, codes ++ [(m.system os cmd).2])) (os, [])

@[simp] theorem systems_append (os : σ) (cmds : List String) (cmd : String) :
    m.systems os (cmds ++ [cmd]) = ((m.system (m.systems os cmds).1 cmd).1,
      (m.systems os cmds).2 ++ [(m.system (m.systems os cmds).1 cmd).2]) := by
  simp [systems]

end Machine

namespace Setup

variable {σ : Type} {m : Machine σ} {os : σ} {s : Setup σ}

/-- Nothing was done but the commands. Each has returned 0, except the last where there is an
exception, which names it. -/
structure Ran (m : Machine σ) (os : σ) (s : Setup σ) : Prop where
  os_eq : s.os = (m.systems os s.commands).1
  returned : s.error = none → ∀ code ∈ (m.systems os s.commands).2, code = 0
  threw : ∀ e, s.error = some e → ∃ before cmd, s.commands = before ++ [cmd] ∧
    e = "Command failed: " ++ cmd ∧ (∀ code ∈ (m.systems os before).2, code = 0) ∧
      (m.system (m.systems os before).1 cmd).2 ≠ 0

theorem ran_start (m : Machine σ) (os : σ) : Ran m os { os := os } where
  os_eq := rfl
  returned _ code hcode := by cases hcode
  threw e he := by cases he

theorem Ran.print (h : s.Ran m os) (line : String) : (s.print line).Ran m os :=
  ⟨h.os_eq, h.returned, h.threw⟩

/-- A command that is run while nothing has been thrown. -/
theorem Ran.run (h : s.Ran m os) (hok : s.error = none) (cmd : String) : (s.run m cmd).Ran m os := by
  have hos := h.os_eq
  have hcodes := h.returned hok
  refine ⟨by simp [Setup.run, ← hos], ?_, ?_⟩
  · intro hnone code hcode
    have hran : (m.system s.os cmd).2 = 0 := by simpa [Setup.run] using hnone
    simp only [Setup.run, Machine.systems_append, ← hos, List.mem_append, List.mem_singleton] at hcode
    rcases hcode with hcode | rfl
    · exact hcodes code hcode
    · exact hran
  · intro e he
    refine ⟨s.commands, cmd, rfl, ?_⟩
    rw [← hos]
    by_cases hcode : (m.system s.os cmd).2 = 0
    · simp [Setup.run, hcode] at he
    · have hthrown : "Command failed: " ++ cmd = e := by simpa [Setup.run, hcode] using he
      exact ⟨hthrown.symm, hcodes, hcode⟩

theorem Ran.andThen (h : s.Ran m os) {f : Setup σ → Setup σ}
    (hf : s.error = none → (f s).Ran m os) : (s.andThen f).Ran m os := by
  rw [Setup.andThen]
  split
  · next hok => exact hf hok
  · exact h

theorem Ran.runIf (h : s.Ran m os) (hok : s.error = none) (c : Prop) [Decidable c] (cmd : String) :
    (if c then s.run m cmd else s).Ran m os := by
  split
  · exact h.run hok cmd
  · exact h

theorem Ran.interfaceSetup (h : s.Ran m os) (hok : s.error = none) (virtualCan : Bool)
    (iface : ConfiguredInterface) : (s.interfaceSetup m virtualCan iface).Ran m os := by
  cases virtualCan with
  | true =>
    have hadded := h.runIf hok (!m.interfaceExists s.os iface.name) (addCommand iface.name)
    exact hadded.andThen fun hnone => hadded.runIf hnone _ _
  | false =>
    change (s.realInterface m iface).Ran m os
    unfold realInterface
    split
    · exact h.print _
    · split
      · exact h.print _
      · have hconfigured := h.runIf hok (0 < iface.baudrate)
          (bitrateCommand iface.name iface.baudrate)
        exact hconfigured.andThen fun hnone => hconfigured.run hnone _

theorem Ran.interfaces (h : s.Ran m os) (virtualCan : Bool) (ifaces : List ConfiguredInterface) :
    (s.interfaces m virtualCan ifaces).Ran m os := by
  induction ifaces generalizing s with
  | nil => exact h
  | cons iface ifaces ih => exact ih (h.andThen fun hok => h.interfaceSetup hok virtualCan iface)

end Setup

theorem ran_setupInterfaces {σ : Type} (m : Machine σ) (cfg : Config) (os : σ) :
    (setupInterfaces m cfg os).Ran m os := by
  unfold setupInterfaces
  apply Setup.Ran.interfaces
  split
  · exact (Setup.ran_start m os).run rfl _
  · exact Setup.ran_start m os

/-! ### What the commands do -/

/-- A name that the shell and `ip` take for a name. -/
def PlainName (name : String) : Prop :=
  name ≠ "" ∧ name.toList.head? ≠ some '-' ∧
    (name.toList.all fun c => c.isAlphanum || c = '_' || c = '.' || c = '-') = true

instance (name : String) : Decidable (PlainName name) := inferInstanceAs (Decidable (_ ∧ _))

namespace Machine

variable {σ : Type} (m : Machine σ)

/-- The interface is as it was. -/
def Same (name : String) (os os' : σ) : Prop :=
  m.ifNametoindex os' name = m.ifNametoindex os name ∧ m.operstate os' name = m.operstate os name

/-- The documented effect of the commands, on a machine whose interfaces do not depend on each other:
a command touches no interface but the one it names, and one that ends with 0 has done its work. -/
structure IpLink : Prop where
  modprobe : ∀ os name, m.Same name os (m.system os modprobeCommand).1
  add_other : ∀ os name other, PlainName name → other ≠ name →
    m.Same other os (m.system os (addCommand name)).1
  add : ∀ os name, PlainName name → (m.system os (addCommand name)).2 = 0 →
    m.interfaceExists (m.system os (addCommand name)).1 name = true ∧
      m.interfaceIsUp (m.system os (addCommand name)).1 name = false
  bitrate : ∀ os name baudrate other, PlainName name →
    m.Same other os (m.system os (bitrateCommand name baudrate)).1
  up_other : ∀ os name other, PlainName name → other ≠ name →
    m.Same other os (m.system os (upCommand name)).1
  up_index : ∀ os name, PlainName name →
    m.ifNametoindex (m.system os (upCommand name)).1 name = m.ifNametoindex os name
  up : ∀ os name, PlainName name → (m.system os (upCommand name)).2 = 0 →
    m.interfaceIsUp (m.system os (upCommand name)).1 name = true

/-- Nothing is left to do: a virtual interface is up, and so is a real one that exists. -/
def Ready (virtualCan : Bool) (os : σ) (name : String) : Prop :=
  if virtualCan then m.interfaceExists os name = true ∧ m.interfaceIsUp os name = true
  else m.interfaceExists os name = true → m.interfaceIsUp os name = true

/-- The commands that an interface needs. -/
def needed (virtualCan : Bool) (os : σ) (iface : ConfiguredInterface) : List String :=
  if virtualCan then
    if !m.interfaceExists os iface.name then [addCommand iface.name, upCommand iface.name]
    else if !m.interfaceIsUp os iface.name then [upCommand iface.name]
    else []
  else if !m.interfaceExists os iface.name || m.interfaceIsUp os iface.name then []
  else (if 0 < iface.baudrate then [bitrateCommand iface.name iface.baudrate] else []) ++
    [upCommand iface.name]

section Same

variable {m} {os os' os'' : σ} {name : String}

theorem Same.refl : m.Same name os os := ⟨rfl, rfl⟩

theorem Same.trans (h : m.Same name os os') (h' : m.Same name os' os'') : m.Same name os os'' :=
  ⟨h'.1.trans h.1, h'.2.trans h.2⟩

theorem Same.interfaceExists (h : m.Same name os os') :
    m.interfaceExists os' name = m.interfaceExists os name := by
  simp [Machine.interfaceExists, h.1]

theorem Same.interfaceIsUp (h : m.Same name os os') :
    m.interfaceIsUp os' name = m.interfaceIsUp os name := by
  simp [Machine.interfaceIsUp, h.2]

theorem Same.ready_iff {virtualCan : Bool} (h : m.Same name os os') :
    m.Ready virtualCan os' name ↔ m.Ready virtualCan os name := by
  simp [Ready, h.interfaceExists, h.interfaceIsUp]

theorem Same.needed {virtualCan : Bool} {iface : ConfiguredInterface}
    (h : m.Same iface.name os os') : m.needed virtualCan os' iface = m.needed virtualCan os iface := by
  simp [Machine.needed, h.interfaceExists, h.interfaceIsUp]

end Same

end Machine

/-! ### Commands in sequence -/

namespace Setup

variable {σ : Type} {m : Machine σ}

/-- Commands up to the first that fails. -/
def runAll (m : Machine σ) (s : Setup σ) (cmds : List String) : Setup σ :=
  cmds.foldl (fun s cmd => s.andThen fun s => s.run m cmd) s

theorem runAll_of_error {s : Setup σ} (herror : s.error ≠ none) (cmds : List String) :
    s.runAll m cmds = s := by
  induction cmds with
  | nil => rfl
  | cons cmd cmds ih => simpa [runAll, andThen, herror] using ih

theorem runAll_cons {s : Setup σ} (hok : s.error = none) (cmd : String) (cmds : List String) :
    s.runAll m (cmd :: cmds) = (s.run m cmd).runAll m cmds := by
  simp [runAll, andThen, hok]

/-- What was run of the commands. -/
theorem commands_runAll {s : Setup σ} (hok : s.error = none) (cmds : List String) :
    ∃ ran, (s.runAll m cmds).commands = s.commands ++ ran ∧ ran <+: cmds ∧
      ((s.runAll m cmds).error = none → ran = cmds) := by
  induction cmds generalizing s with
  | nil => exact ⟨[], by simp [runAll], List.prefix_rfl, fun _ => rfl⟩
  | cons cmd cmds ih =>
    rw [runAll_cons hok]
    by_cases hran : (s.run m cmd).error = none
    · obtain ⟨ran, hcommands, hprefix, hall⟩ := ih hran
      refine ⟨cmd :: ran, by rw [hcommands]; simp [run], by simpa using hprefix, ?_⟩
      intro hnone
      rw [hall hnone]
    · rw [runAll_of_error hran]
      exact ⟨[cmd], by simp [run], by simp, fun hnone => absurd hnone hran⟩

/-- What no command changes. -/
theorem runAll_invariant {P : σ → Prop} {cmds : List String}
    (hcmds : ∀ cmd ∈ cmds, ∀ os, P os → P (m.system os cmd).1) {s : Setup σ} (hs : P s.os) :
    P (s.runAll m cmds).os := by
  induction cmds generalizing s with
  | nil => exact hs
  | cons cmd cmds ih =>
    by_cases hok : s.error = none
    · rw [runAll_cons hok]
      apply ih fun cmd' hmem => hcmds cmd' (List.mem_cons_of_mem _ hmem)
      exact hcmds cmd List.mem_cons_self s.os hs
    · rw [runAll_of_error hok]
      exact hs

/-- All went well, and the last command with it. -/
theorem runAll_concat {s : Setup σ} {cmds : List String} {cmd : String}
    (hnone : (s.runAll m (cmds ++ [cmd])).error = none) :
    (s.runAll m cmds).error = none ∧ (m.system (s.runAll m cmds).os cmd).2 = 0 ∧
      (s.runAll m (cmds ++ [cmd])).os = (m.system (s.runAll m cmds).os cmd).1 := by
  have hsplit : s.runAll m (cmds ++ [cmd]) = (s.runAll m cmds).andThen fun s => s.run m cmd := by
    simp [runAll]
  by_cases hbefore : (s.runAll m cmds).error = none
  · rw [hsplit, andThen, if_pos hbefore] at hnone ⊢
    refine ⟨hbefore, ?_, rfl⟩
    simpa [run] using hnone
  · rw [hsplit, andThen, if_neg hbefore] at hnone
    exact absurd hnone hbefore

end Setup

/-! ### One interface, and all -/

/-- What has been done for the interfaces `ifaces`. -/
structure Sets {σ : Type} (m : Machine σ) (virtualCan : Bool) (ifaces : List ConfiguredInterface)
    (s s' : Setup σ) : Prop where
  other : ∀ name ∉ ifaces.map (·.name), m.Same name s.os s'.os
  kept : ∀ name, m.Ready virtualCan s.os name → m.Same name s.os s'.os
  exists_kept : ∀ name, m.interfaceExists s.os name = true → m.interfaceExists s'.os name = true
  done : s'.error = none → ∀ iface ∈ ifaces, m.Ready virtualCan s'.os iface.name
  idle : (∀ iface ∈ ifaces, m.Ready virtualCan s.os iface.name) →
    s'.os = s.os ∧ s'.commands = s.commands ∧ s'.error = none
  commands : (ifaces.map (·.name)).Nodup → ∃ ran, s'.commands = s.commands ++ ran ∧
    ran <+: ifaces.flatMap (m.needed virtualCan s.os) ∧
    (s'.error = none → ran = ifaces.flatMap (m.needed virtualCan s.os))

namespace Sets

variable {σ : Type} {m : Machine σ} {virtualCan : Bool} {iface : ConfiguredInterface}
  {ifaces : List ConfiguredInterface} {s s₁ s₂ : Setup σ}

theorem nil (hok : s.error = none) : Sets m virtualCan [] s s where
  other _ _ := .refl
  kept _ _ := .refl
  exists_kept _ h := h
  done _ _ h := by cases h
  idle _ := ⟨rfl, rfl, hok⟩
  commands _ := ⟨[], by simp, List.prefix_rfl, fun _ => rfl⟩

/-- After the exception nothing is done for the rest. -/
theorem cons_of_error (h : Sets m virtualCan [iface] s s₁) (herror : s₁.error ≠ none) :
    Sets m virtualCan (iface :: ifaces) s s₁ where
  other name hname := h.other name fun hmem => hname (by simp at hmem; simp [hmem])
  kept := h.kept
  exists_kept := h.exists_kept
  done hnone := absurd hnone herror
  idle hready := by
    have hfirst := h.idle fun iface' hmem => by
      rw [List.mem_singleton.mp hmem]
      exact hready iface List.mem_cons_self
    exact absurd hfirst.2.2 herror
  commands hnodup := by
    obtain ⟨ran, hran, hprefix, -⟩ := h.commands (List.nodup_singleton _)
    refine ⟨ran, hran, ?_, fun hnone => absurd hnone herror⟩
    rw [List.flatMap_cons]
    simpa using hprefix.trans (List.prefix_append _ _)

theorem cons (h : Sets m virtualCan [iface] s s₁) (hok : s₁.error = none)
    (h' : Sets m virtualCan ifaces s₁ s₂) : Sets m virtualCan (iface :: ifaces) s s₂ where
  other name hname := by
    simp only [List.map_cons, List.mem_cons, not_or] at hname
    exact (h.other name (by simpa using hname.1)).trans (h'.other name hname.2)
  kept name hready := by
    have hsame := h.kept name hready
    exact hsame.trans (h'.kept name (hsame.ready_iff.mpr hready))
  exists_kept name hexists := h'.exists_kept name (h.exists_kept name hexists)
  done hnone iface' hmem := by
    rcases List.mem_cons.mp hmem with rfl | hrest
    · -- Its own set-up made it ready, and that is not undone.
      have hready := h.done hok iface' (List.mem_singleton.mpr rfl)
      exact (h'.kept iface'.name hready).ready_iff.mpr hready
    · exact h'.done hnone iface' hrest
  idle hready := by
    obtain ⟨hos, hcommands, -⟩ := h.idle fun iface' hmem => by
      rw [List.mem_singleton.mp hmem]
      exact hready iface List.mem_cons_self
    obtain ⟨hos', hcommands', hnone⟩ := h'.idle fun iface' hmem => by
      rw [hos]
      exact hready iface' (List.mem_cons_of_mem _ hmem)
    exact ⟨hos'.trans hos, hcommands'.trans hcommands, hnone⟩
  commands hnodup := by
    simp only [List.map_cons, List.nodup_cons] at hnodup
    obtain ⟨ran, hran, -, hall⟩ := h.commands (List.nodup_singleton _)
    obtain ⟨ran', hran', hprefix', hall'⟩ := h'.commands hnodup.2
    -- The rest needs what it needed before.
    have hrest : ifaces.flatMap (m.needed virtualCan s₁.os) =
        ifaces.flatMap (m.needed virtualCan s.os) := by
      apply List.flatMap_congr
      intro iface' hmem
      have hne : iface'.name ∉ [iface].map (·.name) := by
        intro hsame
        have hname : iface'.name = iface.name := by simpa using hsame
        apply hnodup.1
        rw [← hname]
        exact List.mem_map_of_mem hmem
      exact (h.other _ hne).needed
    rw [hrest] at hprefix' hall'
    have hran₁ : ran = m.needed virtualCan s.os iface := by simpa using hall hok
    refine ⟨ran ++ ran', by rw [hran', hran, List.append_assoc], ?_, ?_⟩
    · rw [List.flatMap_cons, hran₁]
      exact (List.prefix_append_right_inj _).mpr hprefix'
    · intro hnone
      rw [List.flatMap_cons, hran₁, hall' hnone]

end Sets

section Run

variable {σ : Type} {m : Machine σ} {virtualCan : Bool} {iface : ConfiguredInterface} {s : Setup σ}

theorem needed_of_ready (hready : m.Ready virtualCan s.os iface.name) :
    m.needed virtualCan s.os iface = [] := by
  cases virtualCan with
  | true =>
    obtain ⟨hexists, hup⟩ : m.interfaceExists s.os iface.name = true ∧
      m.interfaceIsUp s.os iface.name = true := hready
    simp [Machine.needed, hexists, hup]
  | false =>
    have hup : m.interfaceExists s.os iface.name = true →
      m.interfaceIsUp s.os iface.name = true := hready
    simpa [Machine.needed] using hup

/-- A ready interface is left alone. -/
theorem interfaceSetup_of_ready (hready : m.Ready virtualCan s.os iface.name) :
    (s.interfaceSetup m virtualCan iface).os = s.os ∧
      (s.interfaceSetup m virtualCan iface).commands = s.commands ∧
      (s.interfaceSetup m virtualCan iface).error = s.error := by
  cases virtualCan with
  | true =>
    obtain ⟨hexists, hup⟩ : m.interfaceExists s.os iface.name = true ∧
      m.interfaceIsUp s.os iface.name = true := hready
    simp [Setup.interfaceSetup, Setup.virtualInterface, hexists, hup, Setup.andThen]
  | false =>
    have hup : m.interfaceExists s.os iface.name = true →
      m.interfaceIsUp s.os iface.name = true := hready
    cases hexists : m.interfaceExists s.os iface.name with
    | false => simp [Setup.interfaceSetup, Setup.realInterface, hexists, Setup.print]
    | true => simp [Setup.interfaceSetup, Setup.realInterface, hexists, hup hexists, Setup.print]

/-- For an interface that is not ready, the commands that it needs are run. -/
theorem interfaceSetup_of_not_ready (hip : m.IpLink) (hname : PlainName iface.name)
    (hok : s.error = none) (hready : ¬m.Ready virtualCan s.os iface.name) :
    s.interfaceSetup m virtualCan iface = s.runAll m (m.needed virtualCan s.os iface) := by
  cases virtualCan with
  | true =>
    cases hexists : m.interfaceExists s.os iface.name with
    | false =>
      by_cases hcode : (m.system s.os (addCommand iface.name)).2 = 0
      · have hdown := (hip.add s.os iface.name hname hcode).2
        simp [Setup.interfaceSetup, Setup.virtualInterface, Machine.needed, hexists, Setup.runAll,
          Setup.andThen, Setup.run, hok, hcode, hdown]
      · simp [Setup.interfaceSetup, Setup.virtualInterface, Machine.needed, hexists, Setup.runAll,
          Setup.andThen, Setup.run, hok, hcode]
    | true =>
      have hdown : m.interfaceIsUp s.os iface.name = false := by
        simpa [Machine.Ready, hexists] using hready
      simp [Setup.interfaceSetup, Setup.virtualInterface, Machine.needed, hexists, hdown,
        Setup.runAll, Setup.andThen, hok]
  | false =>
    obtain ⟨hexists, hdown⟩ : m.interfaceExists s.os iface.name = true ∧
        m.interfaceIsUp s.os iface.name = false := by
      simpa [Machine.Ready] using hready
    by_cases hrate : 0 < iface.baudrate
    · simp only [Setup.interfaceSetup, Setup.realInterface, Machine.needed, hexists, hdown, hrate]
      simp [Setup.runAll, Setup.andThen, hok]
    · simp only [Setup.interfaceSetup, Setup.realInterface, Machine.needed, hexists, hdown, hrate]
      simp [Setup.runAll, Setup.andThen, hok]

/-- A command that an interface needs concerns it alone. -/
theorem same_of_mem_needed (hip : m.IpLink) (hname : PlainName iface.name) {os₀ : σ} {cmd : String}
    (hcmd : cmd ∈ m.needed virtualCan os₀ iface) {name : String} (hne : name ≠ iface.name) (os : σ) :
    m.Same name os (m.system os cmd).1 := by
  have hcases : cmd = addCommand iface.name ∨ cmd = upCommand iface.name ∨
      cmd = bitrateCommand iface.name iface.baudrate := by
    simp only [Machine.needed] at hcmd
    split_ifs at hcmd <;> simp at hcmd <;> tauto
  rcases hcases with rfl | rfl | rfl
  · exact hip.add_other os iface.name name hname hne
  · exact hip.up_other os iface.name name hname hne
  · exact hip.bitrate os iface.name iface.baudrate name hname

/-- An interface that is there stays there. -/
theorem exists_of_mem_needed (hip : m.IpLink) (hname : PlainName iface.name) {os₀ : σ}
    (hexists : m.interfaceExists os₀ iface.name = true) {cmd : String}
    (hcmd : cmd ∈ m.needed virtualCan os₀ iface) {os : σ}
    (hos : m.interfaceExists os iface.name = true) :
    m.interfaceExists (m.system os cmd).1 iface.name = true := by
  have hcases : cmd = upCommand iface.name ∨ cmd = bitrateCommand iface.name iface.baudrate := by
    simp only [Machine.needed, hexists] at hcmd
    split_ifs at hcmd <;> simp at hcmd <;> tauto
  rcases hcases with rfl | rfl
  · simpa [Machine.interfaceExists, hip.up_index os iface.name hname] using hos
  · rw [(hip.bitrate os iface.name iface.baudrate iface.name hname).interfaceExists]
    exact hos

/-- The last command brings the interface up. -/
theorem needed_of_not_ready (hready : ¬m.Ready virtualCan s.os iface.name) :
    ∃ front, m.needed virtualCan s.os iface = front ++ [upCommand iface.name] ∧
      (m.interfaceExists s.os iface.name = false → virtualCan = true ∧
        front = [addCommand iface.name]) := by
  cases virtualCan with
  | true =>
    cases hexists : m.interfaceExists s.os iface.name with
    | false => exact ⟨[addCommand iface.name], by simp [Machine.needed, hexists], by simp⟩
    | true =>
      have hdown : m.interfaceIsUp s.os iface.name = false := by
        simpa [Machine.Ready, hexists] using hready
      exact ⟨[], by simp [Machine.needed, hexists, hdown], by simp⟩
  | false =>
    obtain ⟨hexists, hdown⟩ : m.interfaceExists s.os iface.name = true ∧
        m.interfaceIsUp s.os iface.name = false := by
      simpa [Machine.Ready] using hready
    exact ⟨_, by simp only [Machine.needed, hexists, hdown]; rfl, by simp [hexists]⟩

theorem exists_runAll_needed (hip : m.IpLink) (hname : PlainName iface.name)
    (hexists : m.interfaceExists s.os iface.name = true) :
    m.interfaceExists (s.runAll m (m.needed virtualCan s.os iface)).os iface.name = true := by
  apply Setup.runAll_invariant (P := fun os => m.interfaceExists os iface.name = true) _ hexists
  intro cmd hcmd os hos
  exact exists_of_mem_needed hip hname hexists hcmd hos

/-- If none of the commands fails, the interface is ready. -/
theorem ready_runAll_needed (hip : m.IpLink) (hname : PlainName iface.name)
    (hready : ¬m.Ready virtualCan s.os iface.name)
    (hnone : (s.runAll m (m.needed virtualCan s.os iface)).error = none) :
    m.Ready virtualCan (s.runAll m (m.needed virtualCan s.os iface)).os iface.name := by
  have hkept : m.interfaceExists s.os iface.name = true → m.interfaceExists
      (s.runAll m (m.needed virtualCan s.os iface)).os iface.name = true :=
    exists_runAll_needed hip hname
  obtain ⟨front, hneeded, hfront⟩ := needed_of_not_ready hready
  rw [hneeded] at hnone hkept ⊢
  obtain ⟨hbefore, hcode, hos⟩ := Setup.runAll_concat hnone
  have hup : m.interfaceIsUp (s.runAll m (front ++ [upCommand iface.name])).os iface.name =
      true := by
    rw [hos]
    exact hip.up _ _ hname hcode
  have hthere : virtualCan = true → m.interfaceExists
      (s.runAll m (front ++ [upCommand iface.name])).os iface.name = true := by
    intro _
    cases hexists : m.interfaceExists s.os iface.name with
    | true => exact hkept hexists
    | false =>
      -- It has been added, and the last command leaves it there.
      obtain ⟨-, rfl⟩ := hfront hexists
      have hadded : (s.runAll m ([] ++ [addCommand iface.name])).error = none := hbefore
      obtain ⟨-, hcode', hos'⟩ := Setup.runAll_concat hadded
      rw [hos]
      simp only [Machine.interfaceExists, hip.up_index _ _ hname]
      rw [List.nil_append] at hos'
      rw [hos']
      exact (hip.add _ _ hname hcode').1
  cases virtualCan with
  | true => exact ⟨hthere rfl, hup⟩
  | false => exact fun _ => hup

/-- What the set-up of one interface does. -/
theorem sets_interfaceSetup (hip : m.IpLink) (hname : PlainName iface.name) (hok : s.error = none) :
    Sets m virtualCan [iface] s (s.interfaceSetup m virtualCan iface) := by
  by_cases hready : m.Ready virtualCan s.os iface.name
  · obtain ⟨hos, hcommands, herror⟩ := interfaceSetup_of_ready hready
    have hneeded := needed_of_ready hready
    refine ⟨?_, ?_, ?_, ?_, ?_, ?_⟩
    · exact fun name _ => hos ▸ .refl
    · exact fun name _ => hos ▸ .refl
    · exact fun name h => hos ▸ h
    · intro _ iface' hmem
      rw [List.mem_singleton.mp hmem, hos]
      exact hready
    · exact fun _ => ⟨hos, hcommands, herror.trans hok⟩
    · exact fun _ => ⟨[], by simp [hcommands], by simp, fun _ => by simp [hneeded]⟩
  · rw [interfaceSetup_of_not_ready hip hname hok hready]
    have hother : ∀ name ≠ iface.name,
        m.Same name s.os (s.runAll m (m.needed virtualCan s.os iface)).os := by
      intro name hne
      apply Setup.runAll_invariant (P := m.Same name s.os) _ .refl
      intro cmd hcmd os hsame
      exact hsame.trans (same_of_mem_needed hip hname hcmd hne os)
    refine ⟨?_, ?_, ?_, ?_, ?_, ?_⟩
    · exact fun name hname' => hother name (by simpa using hname')
    · intro name hname'
      apply hother
      rintro rfl
      exact hready hname'
    · intro name hexists
      by_cases hne : name = iface.name
      · subst hne
        exact exists_runAll_needed hip hname hexists
      · rw [(hother name hne).interfaceExists]
        exact hexists
    · intro hnone iface' hmem
      rw [List.mem_singleton.mp hmem]
      exact ready_runAll_needed hip hname hready hnone
    · intro hall
      exact absurd (hall iface (List.mem_singleton.mpr rfl)) hready
    · intro _
      rw [List.flatMap_singleton]
      exact Setup.commands_runAll hok _

theorem interfaces_of_error (herror : s.error ≠ none) (ifaces : List ConfiguredInterface) :
    s.interfaces m virtualCan ifaces = s := by
  induction ifaces with
  | nil => rfl
  | cons iface ifaces ih => simpa [Setup.interfaces, Setup.andThen, herror] using ih

/-- The loop over the interfaces. -/
theorem sets_interfaces (hip : m.IpLink) {ifaces : List ConfiguredInterface}
    (hnames : ∀ iface ∈ ifaces, PlainName iface.name) (hok : s.error = none) :
    Sets m virtualCan ifaces s (s.interfaces m virtualCan ifaces) := by
  induction ifaces generalizing s with
  | nil => exact .nil hok
  | cons iface ifaces ih =>
    have hstep : s.interfaces m virtualCan (iface :: ifaces) =
        (s.interfaceSetup m virtualCan iface).interfaces m virtualCan ifaces := by
      simp [Setup.interfaces, Setup.andThen, hok]
    have hfirst : Sets m virtualCan [iface] s (s.interfaceSetup m virtualCan iface) :=
      sets_interfaceSetup hip (hnames iface List.mem_cons_self) hok
    rw [hstep]
    by_cases hnone : (s.interfaceSetup m virtualCan iface).error = none
    · exact hfirst.cons hnone (ih (fun iface' hmem => hnames iface' (List.mem_cons_of_mem _ hmem))
        hnone)
    · rw [interfaces_of_error hnone]
      exact hfirst.cons_of_error hnone

end Run

/-! ### The set-up -/

section SetUp

variable {σ : Type} {m : Machine σ}

/-- What has been set up from the start, on top of the module for virtual interfaces. -/
theorem sets_setupInterfaces (hip : m.IpLink) {cfg : Config}
    (hnames : ∀ iface ∈ cfg.interfaces, PlainName iface.name) (os : σ) :
    (setupInterfaces m cfg os).error = some ("Command failed: " ++ modprobeCommand) ∧
        (setupInterfaces m cfg os).commands = [modprobeCommand] ∧
        (∀ name, m.Same name os (setupInterfaces m cfg os).os) ∧ cfg.virtualCan = true ∨
      ∃ loaded : Setup σ, loaded.error = none ∧
        loaded.commands = (if cfg.virtualCan then [modprobeCommand] else []) ∧
        (∀ name, m.Same name os loaded.os) ∧
        Sets m cfg.virtualCan cfg.interfaces loaded (setupInterfaces m cfg os) := by
  cases hvirtual : cfg.virtualCan with
  | false =>
    right
    refine ⟨{ os := os }, rfl, rfl, fun _ => .refl, ?_⟩
    have hset : Sets m false cfg.interfaces { os := os }
      (Setup.interfaces m false { os := os } cfg.interfaces) := sets_interfaces hip hnames rfl
    simpa [setupInterfaces, hvirtual] using hset
  | true =>
    have hsame : ∀ name, m.Same name os (m.system os modprobeCommand).1 := hip.modprobe os
    by_cases hcode : (m.system os modprobeCommand).2 = 0
    · right
      refine ⟨Setup.run m { os := os } modprobeCommand, by simp [Setup.run, hcode], rfl, hsame, ?_⟩
      have hset : Sets m true cfg.interfaces (Setup.run m { os := os } modprobeCommand)
          ((Setup.run m { os := os } modprobeCommand).interfaces m true cfg.interfaces) :=
        sets_interfaces hip hnames (by simp [Setup.run, hcode])
      simpa [setupInterfaces, hvirtual] using hset
    · left
      have herror : (Setup.run m { os := os } modprobeCommand).error =
          some ("Command failed: " ++ modprobeCommand) := by
        simp [Setup.run, hcode]
      have hstop : setupInterfaces m cfg os = Setup.run m { os := os } modprobeCommand := by
        simp only [setupInterfaces, hvirtual, if_true]
        apply interfaces_of_error
        simp [herror]
      rw [hstop]
      exact ⟨herror, rfl, hsame, rfl⟩

/-- After a set-up that returns, the interfaces are up. -/
theorem up_setupInterfaces (hip : m.IpLink) {cfg : Config}
    (hnames : ∀ iface ∈ cfg.interfaces, PlainName iface.name) {os : σ}
    (hnone : (setupInterfaces m cfg os).error = none) {iface : ConfiguredInterface}
    (hiface : iface ∈ cfg.interfaces)
    (hcase : cfg.virtualCan = true ∨ m.interfaceExists os iface.name = true) :
    m.interfaceExists (setupInterfaces m cfg os).os iface.name = true ∧
      m.interfaceIsUp (setupInterfaces m cfg os).os iface.name = true := by
  rcases sets_setupInterfaces hip hnames os with ⟨herror, -⟩ | ⟨loaded, -, -, hsame, hset⟩
  · rw [herror] at hnone
    cases hnone
  · have hready := hset.done hnone iface hiface
    cases hvirtual : cfg.virtualCan with
    | true =>
      rw [hvirtual] at hready
      exact hready
    | false =>
      rw [hvirtual] at hready hcase
      have hexists : m.interfaceExists (setupInterfaces m cfg os).os iface.name = true := by
        apply hset.exists_kept
        rw [(hsame iface.name).interfaceExists]
        simpa using hcase
      exact ⟨hexists, hready hexists⟩

/-- What no set-up touches, whether it returns or not. -/
theorem same_setupInterfaces (hip : m.IpLink) {cfg : Config}
    (hnames : ∀ iface ∈ cfg.interfaces, PlainName iface.name) (os : σ) {name : String}
    (hname : name ∉ cfg.interfaces.map (·.name) ∨ m.Ready cfg.virtualCan os name) :
    m.Same name os (setupInterfaces m cfg os).os := by
  rcases sets_setupInterfaces hip hnames os with ⟨-, -, hsame, -⟩ | ⟨loaded, -, -, hsame, hset⟩
  · exact hsame name
  · rcases hname with hout | hready
    · exact (hsame name).trans (hset.other name hout)
    · exact (hsame name).trans (hset.kept name ((hsame name).ready_iff.mpr hready))

/-- **The interfaces are set up.** On any machine whose commands do what is documented, for interfaces
whose names the shell takes as they are: after a set-up that returns, every interface of the
configuration is up, except for those of a real bus that were missing, and a second set-up runs no
command for an interface and changes nothing. In every case, an interface that is not in the
configuration, or that was ready, is as before. If no interface is configured twice, the commands are
those that the interfaces needed at the start, in the order of the configuration: all of them if the
set-up returns, and then all return 0, and otherwise those up to the first that did not return 0,
which the exception names. -/
theorem interfaces_set_up (hip : m.IpLink) {cfg : Config}
    (hnames : ∀ iface ∈ cfg.interfaces, PlainName iface.name) (os : σ) :
    let s := setupInterfaces m cfg os
    let modprobe := if cfg.virtualCan then [modprobeCommand] else []
    (s.error = none →
      (∀ iface ∈ cfg.interfaces,
        cfg.virtualCan = true ∨ m.interfaceExists os iface.name = true →
          m.interfaceExists s.os iface.name = true ∧ m.interfaceIsUp s.os iface.name = true) ∧
      (setupInterfaces m cfg s.os).commands = modprobe ∧
      ∀ name, m.Same name s.os (setupInterfaces m cfg s.os).os) ∧
    (∀ name, name ∉ cfg.interfaces.map (·.name) ∨ m.Ready cfg.virtualCan os name →
      m.Same name os s.os) ∧
    ((cfg.interfaces.map (·.name)).Nodup →
      s.commands <+: modprobe ++ cfg.interfaces.flatMap (m.needed cfg.virtualCan os) ∧
      (s.error = none →
        s.commands = modprobe ++ cfg.interfaces.flatMap (m.needed cfg.virtualCan os))) ∧
    s.Ran m os := by
  intro s modprobe
  refine ⟨fun hnone => ⟨fun iface hiface => up_setupInterfaces hip hnames hnone hiface, ?_⟩,
    fun name => same_setupInterfaces hip hnames os, ?_, ran_setupInterfaces m cfg os⟩
  · -- Everything is ready, so the second time there is nothing to do.
    have hready : ∀ iface ∈ cfg.interfaces, m.Ready cfg.virtualCan s.os iface.name := by
      rcases sets_setupInterfaces hip hnames os with ⟨herror, -⟩ | ⟨loaded, -, -, -, hset⟩
      · rw [herror] at hnone
        cases hnone
      · exact hset.done hnone
    rcases sets_setupInterfaces hip hnames s.os with
      ⟨-, hcommands, hsame, hvirtual⟩ | ⟨loaded, -, hloaded, hsame, hset⟩
    · exact ⟨by simp [modprobe, hcommands, hvirtual], hsame⟩
    · obtain ⟨hos, hcommands, -⟩ := hset.idle fun iface hiface =>
        (hsame iface.name).ready_iff.mpr (hready iface hiface)
      refine ⟨hcommands.trans hloaded, fun name => ?_⟩
      rw [hos]
      exact hsame name
  · rcases sets_setupInterfaces hip hnames os with
      ⟨herror, hcommands, -, hvirtual⟩ | ⟨loaded, -, hloaded, hsame, hset⟩
    · refine fun _ => ⟨?_, fun hnone => ?_⟩
      · simp [s, modprobe, hcommands, hvirtual]
      · rw [herror] at hnone
        cases hnone
    · have hneeded : cfg.interfaces.flatMap (m.needed cfg.virtualCan loaded.os) =
          cfg.interfaces.flatMap (m.needed cfg.virtualCan os) :=
        List.flatMap_congr fun iface _ => (hsame iface.name).needed
      intro hnodup
      obtain ⟨ran, hran, hprefix, hall⟩ := hset.commands hnodup
      rw [hneeded] at hprefix hall
      have hcommands : s.commands = modprobe ++ ran := by rw [hran, hloaded]
      rw [hcommands]
      exact ⟨(List.prefix_append_right_inj _).mpr hprefix, fun hnone => by rw [hall hnone]⟩

end SetUp

/-! ### Starting the program -/

inductive Mode where
  | playback
  | tui
  | gui
  | live
deriving DecidableEq

/-- How `main` ends, or that it calls the function of a mode. -/
inductive Outcome where
  | runs (mode : Mode) (app : AppConfig)
  /-- A message, and the exit status 1. -/
  | failed (message : String)
  /-- An exception that nothing catches. -/
  | terminated (what : String)

def AppConfig.mode (app : AppConfig) : Mode :=
  if app.playbackPath ≠ "" then .playback
  else if app.tuiMode then .tui
  else if app.guiMode then .gui
  else .live

def AppConfig.withInterfaces (app : AppConfig) (ifaces : List ConfiguredInterface) : AppConfig :=
  { app with config := { app.config with interfaces := ifaces } }

/-- The interfaces of a log, where none are given. -/
def AppConfig.autoDetect (scanInterfaces : String → Except String (List String)) (app : AppConfig) :
    Except String AppConfig :=
  if app.playbackPath ≠ "" ∧ app.config.interfaces.isEmpty then do
    let names ← scanInterfaces app.playbackPath
    return app.withInterfaces (names.map fun name => { name := name, dbc := "", actionsFile := "" })
  else return app

def main {σ : Type} (m : Machine σ) (env : ConfigEnv)
    (scanInterfaces : String → Except String (List String)) (flags : Flags)
    (ifaceArgs : List String) (os : σ) : σ × Outcome :=
  match AppConfig.parse env flags ifaceArgs with
  | .error e => (os, .failed ("Error loading config: " ++ e))
  | .ok app =>
    match app.autoDetect scanInterfaces with
    | .error e => (os, .terminated e)
    | .ok app =>
      if app.config.interfaces.isEmpty ∧ app.playbackPath = "" then
        (os, .failed "Error: no interfaces specified and no caneo.yaml found.")
      else if !app.config.interfaces.isEmpty ∧ app.grpcClient = "" then
        let setup := setupInterfaces m app.config os
        match setup.error with
        | some e => (setup.os, .failed ("Error setting up interfaces: " ++ e))
        | none => (setup.os, .runs app.mode app)
      else (os, .runs app.mode app)

/-- The files and the command line say a configuration; the one without interfaces, where there is
neither a file nor an argument. -/
inductive Says (env : ConfigEnv) (flags : Flags) (ifaceArgs : List String) : Config → Prop where
  | named {root : YAML.Node} {cfg : Config} : flags.config ≠ "" →
      env.loadFile flags.config = .ok root → DocumentSays env root cfg → Says env flags ifaceArgs cfg
  | found {root : YAML.Node} {cfg : Config} : flags.config = "" → ifaceArgs = [] →
      env.fileExists "caneo.yaml" = true → env.loadFile "caneo.yaml" = .ok root →
      DocumentSays env root cfg → Says env flags ifaceArgs cfg
  | args {ifaces : List ConfiguredInterface} : flags.config = "" → ifaceArgs ≠ [] →
      List.Forall₂ ArgSays ifaceArgs ifaces → Says env flags ifaceArgs { interfaces := ifaces }
  | nothing : flags.config = "" → ifaceArgs = [] → env.fileExists "caneo.yaml" = false →
      Says env flags ifaceArgs {}

section Start

variable {σ : Type} {m : Machine σ} {env : ConfigEnv} {flags : Flags} {ifaceArgs : List String}
  {cfg : Config}

theorem map_interfaceOfArg {ifaces : List ConfiguredInterface}
    (h : List.Forall₂ ArgSays ifaceArgs ifaces) : ifaceArgs.map interfaceOfArg = ifaces := by
  induction h with
  | nil => rfl
  | cons harg _ ih => rw [List.map_cons, interfaceOfArg_eq harg, ih]

theorem Says.configOf (h : Says env flags ifaceArgs cfg) :
    AppConfig.configOf env flags ifaceArgs = .ok cfg := by
  cases h with
  | named hflag hload hdoc =>
    simp [AppConfig.configOf, hflag, ConfigEnv.loadConfig, hload, parseConfig_eq hdoc]
  | found hflag hargs hexists hload hdoc =>
    simp [AppConfig.configOf, hflag, hargs, ConfigEnv.tryLoadDefaultConfig, hexists,
      ConfigEnv.loadConfig, hload, parseConfig_eq hdoc]
  | args hflag hargs hall =>
    simp [AppConfig.configOf, hflag, hargs, map_interfaceOfArg hall]
  | nothing hflag hargs hexists =>
    simp [AppConfig.configOf, hflag, hargs, ConfigEnv.tryLoadDefaultConfig, hexists]

/-- **What is running is what was written, and it is up.** For every way to say a configuration, in
a file with any order of its keys and any mix of the notations or on the command line, with interfaces
whose names the shell takes as they are, and on every machine whose commands do what is documented: a
mode other than playback is run exactly if there are interfaces and, unless
the frames come from a server, their set-up has succeeded. It is the mode of the flags and runs with
the configuration that was meant. Then every interface is up that is virtual or was there, while
those that are not in the configuration are as before, as is everything if the frames come from a
server. -/
theorem started_up (hip : m.IpLink) (hmeant : Says env flags ifaceArgs cfg)
    (hnames : ∀ iface ∈ cfg.interfaces, PlainName iface.name) (hplayback : flags.playback = "")
    (scanInterfaces : String → Except String (List String)) (os : σ) :
    let r := main m env scanInterfaces flags ifaceArgs os
    let mode := if flags.tui then Mode.tui else if flags.gui then Mode.gui else Mode.live
    ((∃ mode' app, r.2 = .runs mode' app) ↔ cfg.interfaces ≠ [] ∧
      (flags.grpcClient = "" → (setupInterfaces m cfg os).error = none)) ∧
    (∀ mode' app, r.2 = .runs mode' app → mode' = mode ∧ app.config = cfg ∧
      (flags.grpcClient = "" → ∀ iface ∈ cfg.interfaces,
        cfg.virtualCan = true ∨ m.interfaceExists os iface.name = true →
          m.interfaceExists r.1 iface.name = true ∧ m.interfaceIsUp r.1 iface.name = true)) ∧
    (∀ name ∉ cfg.interfaces.map (·.name), m.Same name os r.1) ∧
    (flags.grpcClient ≠ "" → r.1 = os) := by
  intro r mode
  obtain ⟨app, hparse, hconfig, hpath, hclient, hmode⟩ :
      ∃ app, AppConfig.parse env flags ifaceArgs = .ok app ∧ app.config = cfg ∧
        app.playbackPath = "" ∧ app.grpcClient = flags.grpcClient ∧ app.mode = mode := by
    refine ⟨_, by rw [AppConfig.parse, hmeant.configOf]; rfl, rfl, hplayback, rfl, ?_⟩
    simp [AppConfig.mode, hplayback, mode]
  have hdetect : app.autoDetect scanInterfaces = .ok app := by
    simp [AppConfig.autoDetect, hpath]
    rfl
  have hr : r = main m env scanInterfaces flags ifaceArgs os := rfl
  by_cases hempty : cfg.interfaces = []
  · have hfailed : r =
        (os, .failed "Error: no interfaces specified and no caneo.yaml found.") := by
      simp [hr, main, hparse, hdetect, hpath, hconfig, hempty]
    simp [hfailed, hempty, Machine.Same.refl]
  · by_cases hlocal : flags.grpcClient = ""
    · cases herror : (setupInterfaces m cfg os).error with
      | some e =>
        have hfailed : r = ((setupInterfaces m cfg os).os,
            .failed ("Error setting up interfaces: " ++ e)) := by
          simp [hr, main, hparse, hdetect, hpath, hconfig, hempty, hclient, hlocal, herror]
        rw [hfailed]
        refine ⟨by simp [hlocal], by simp, fun name hname => ?_, fun hremote => absurd hlocal hremote⟩
        exact same_setupInterfaces hip hnames os (Or.inl hname)
      | none =>
        have hruns : r = ((setupInterfaces m cfg os).os, .runs mode app) := by
          simp [hr, main, hparse, hdetect, hpath, hconfig, hempty, hclient, hlocal, herror, hmode]
        rw [hruns]
        refine ⟨by simp [hempty], ?_, fun name hname => ?_, fun hremote => absurd hlocal hremote⟩
        · rintro mode' app' hsame
          cases hsame
          exact ⟨rfl, hconfig, fun _ iface hiface => up_setupInterfaces hip hnames herror hiface⟩
        · exact same_setupInterfaces hip hnames os (Or.inl hname)
    · have hruns : r = (os, .runs mode app) := by
        simp [hr, main, hparse, hdetect, hpath, hconfig, hempty, hclient, hlocal, hmode]
      rw [hruns]
      refine ⟨by simp [hempty, hlocal], ?_, fun _ _ => .refl, fun _ => rfl⟩
      rintro mode' app' hsame
      cases hsame
      exact ⟨rfl, hconfig, fun hnone => absurd hnone hlocal⟩

end Start

/-! ### A machine

Its interfaces are up or down, and it reads the commands word by word. -/

def words (cmd : String) : List String := (cmd.toList.splitOn ' ').map String.ofList

def linuxBox : Machine (String → Option Bool) where
  ifNametoindex links name := if (links name).isSome then 1 else 0
  operstate links name := (links name).map fun up => if up then "unknown" else "down"
  system links cmd :=
    match words cmd with
    | ["sudo", "ip", "link", "add", "dev", name, "type", "vcan"] =>
      if (links name).isSome then (links, 2) else (Function.update links name (some false), 0)
    | ["sudo", "ip", "link", "set", "up", name] =>
      if (links name).isSome then (Function.update links name (some true), 0) else (links, 1)
    | _ => (links, 0)

theorem words_append (a b : String) : words (a ++ " " ++ b) = words a ++ words b := by
  have hchars : (a ++ " " ++ b).toList = a.toList ++ ' ' :: b.toList := by simp
  rw [words, hchars, List.splitOn_append_cons_self, List.map_append]
  rfl

theorem words_singleton {word : String} (hword : ' ' ∉ word.toList) : words word = [word] := by
  rw [words, List.splitOn_eq_singleton hword]
  simp

theorem PlainName.not_mem_space {name : String} (h : PlainName name) : ' ' ∉ name.toList := by
  intro hmem
  have hspace := List.all_eq_true.mp h.2.2 ' ' hmem
  exact absurd hspace (by decide)

section Box

variable {links : String → Option Bool} {name : String}

theorem system_modprobe : linuxBox.system links modprobeCommand = (links, 0) := by
  have hwords : words modprobeCommand = ["sudo", "modprobe", "vcan"] := by decide +kernel
  simp [linuxBox, hwords]

theorem system_add (hname : PlainName name) : linuxBox.system links (addCommand name) =
    if (links name).isSome then (links, 2) else (Function.update links name (some false), 0) := by
  have hsplit : addCommand name =
      "sudo ip link add dev" ++ " " ++ (name ++ " " ++ "type vcan") := by
    have hfront : "sudo ip link add dev " = "sudo ip link add dev" ++ " " := rfl
    have hback : " type vcan" = " " ++ "type vcan" := rfl
    have hwhole : addCommand name = ("sudo ip link add dev" ++ " ") ++ name ++
        (" " ++ "type vcan") :=
      congrArg₂ (fun front back => front ++ name ++ back) hfront hback
    simpa only [String.append_assoc] using hwhole
  have hfront : words "sudo ip link add dev" = ["sudo", "ip", "link", "add", "dev"] := by
    decide +kernel
  have hback : words "type vcan" = ["type", "vcan"] := by decide +kernel
  have hwords : words (addCommand name) =
      ["sudo", "ip", "link", "add", "dev", name, "type", "vcan"] := by
    rw [hsplit, words_append, words_append, words_singleton hname.not_mem_space, hfront, hback]
    rfl
  simp [linuxBox, hwords]

theorem system_up (hname : PlainName name) : linuxBox.system links (upCommand name) =
    if (links name).isSome then (Function.update links name (some true), 0) else (links, 1) := by
  have hsplit : upCommand name = "sudo ip link set up" ++ " " ++ name := by
    have hfront : "sudo ip link set up " = "sudo ip link set up" ++ " " := rfl
    exact congrArg (fun front => front ++ name) hfront
  have hfront : words "sudo ip link set up" = ["sudo", "ip", "link", "set", "up"] := by
    decide +kernel
  have hwords : words (upCommand name) = ["sudo", "ip", "link", "set", "up", name] := by
    rw [hsplit, words_append, words_singleton hname.not_mem_space, hfront]
    rfl
  simp [linuxBox, hwords]

theorem system_bitrate (hname : PlainName name) (baudrate : BitVec 32) :
    linuxBox.system links (bitrateCommand name baudrate) = (links, 0) := by
  have hsplit : bitrateCommand name baudrate =
      "sudo ip link set" ++ " " ++ (name ++ " " ++ ("type can bitrate" ++ " " ++
        toString baudrate.toNat)) := by
    have hfront : "sudo ip link set " = "sudo ip link set" ++ " " := rfl
    have hback : " type can bitrate " = " " ++ ("type can bitrate" ++ " ") := rfl
    have hwhole : bitrateCommand name baudrate = ("sudo ip link set" ++ " ") ++ name ++
        (" " ++ ("type can bitrate" ++ " ")) ++ toString baudrate.toNat :=
      congrArg₂ (fun front back => front ++ name ++ back ++ toString baudrate.toNat) hfront hback
    simpa only [String.append_assoc] using hwhole
  have hfront : words "sudo ip link set" = ["sudo", "ip", "link", "set"] := by decide +kernel
  have hback : words "type can bitrate" = ["type", "can", "bitrate"] := by decide +kernel
  have hwords : words (bitrateCommand name baudrate) = "sudo" :: "ip" :: "link" :: "set" :: name ::
      "type" :: "can" :: "bitrate" :: words (toString baudrate.toNat) := by
    rw [hsplit, words_append, words_append, words_append, words_singleton hname.not_mem_space,
      hfront, hback]
    rfl
  simp [linuxBox, hwords]

end Box

theorem linuxBox_ipLink : linuxBox.IpLink where
  modprobe links name := by
    rw [system_modprobe]
    exact .refl
  add_other links name other hname hne := by
    rw [system_add hname]
    split
    · exact .refl
    · simp [Machine.Same, linuxBox, hne]
  add links name hname hcode := by
    rw [system_add hname] at hcode ⊢
    split at hcode
    · cases hcode
    · next hnone => simp [hnone, Machine.interfaceExists, Machine.interfaceIsUp, linuxBox]
  bitrate links name baudrate other hname := by
    rw [system_bitrate hname]
    exact .refl
  up_other links name other hname hne := by
    rw [system_up hname]
    split
    · simp [Machine.Same, linuxBox, hne]
    · exact .refl
  up_index links name hname := by
    rw [system_up hname]
    split
    · next hsome => simp [linuxBox, hsome]
    · rfl
  up links name hname hcode := by
    rw [system_up hname] at hcode ⊢
    split at hcode
    · next hsome => simp [hsome, Machine.interfaceIsUp, linuxBox]
    · cases hcode

/-! A real bus that is there and down, and one that is missing. -/

def canConfig : Config where
  interfaces := [{ name := "can0", dbc := "", actionsFile := "", baudrate := 500000 },
    { name := "can1", dbc := "", actionsFile := "" }]

def canLinks (name : String) : Option Bool := if name = "can0" then some false else none

theorem canConfig_plainNames : ∀ iface ∈ canConfig.interfaces, PlainName iface.name := by
  decide +kernel

theorem interfaces_set_up_can0 :
    let s := setupInterfaces linuxBox canConfig canLinks
    s.commands = [bitrateCommand "can0" 500000, upCommand "can0"] ∧
      linuxBox.interfaceIsUp s.os "can0" = true ∧
      (setupInterfaces linuxBox canConfig s.os).commands = [] := by
  intro s
  have hnone : s.error = none := by decide +kernel
  obtain ⟨hup, -, hcommands, -⟩ :=
    interfaces_set_up linuxBox_ipLink canConfig_plainNames canLinks
  obtain ⟨hready, hagain, -⟩ := hup hnone
  refine ⟨?_, ?_, hagain⟩
  · rw [(hcommands (by decide)).2 hnone]
    decide +kernel
  · exact (hready _ List.mem_cons_self (Or.inr (by decide))).2

/-! Two virtual interfaces, the one written by its name and the other with some of the fields. -/

def vcanConfig : Config where
  virtualCan := true
  logFilePath := some "/home/can/logs"
  interfaces := [{ name := "vcan0", dbc := "", actionsFile := "" },
    { name := "vcan1", dbc := "vcan1.dbc", actionsFile := "", baudrate := 1000000 }]

def vcanEntries : List (YAML.Node × YAML.Node) :=
  [(.scalar "virtual", .scalar "true"), (.scalar "log_file_path", .scalar "~/logs"),
    (.scalar "interfaces", .map [(.scalar "vcan0", .null),
      (.scalar "vcan1", .map [(.scalar "dbc", .scalar "vcan1.dbc"),
        (.scalar "baudrate", .scalar "1000000")])])]

def vcanEnv : ConfigEnv where
  asBool text := if text = "true" then some true else if text = "false" then some false else none
  asUint32 text :=
    if text.toList.all Char.isDigit && Nat.ofDigitChars 10 text.toList 0 < 2 ^ 32 then
      some (BitVec.ofNat 32 (Nat.ofDigitChars 10 text.toList 0))
    else none
  currentPath := "/home/can"
  home := some "/home/can"
  loadFile path := if path = "caneo.yaml" then .ok (.map vcanEntries) else .error "bad file"
  fileExists path := path = "caneo.yaml"

theorem vcan_document : DocumentSays vcanEnv (.map vcanEntries) vcanConfig := by
  apply DocumentSays.map (.present rfl (by decide)) (.present rfl (by decide)) (.absent rfl) rfl
  apply InterfacesSay.map
  apply List.Forall₂.cons (.bare "vcan0")
  apply List.Forall₂.cons (.fields (.present rfl rfl) (.present rfl (by decide)) (.absent rfl))
  exact .nil

theorem started_up_vcan :
    let r := main linuxBox vcanEnv (fun _ => .error "no log") { tui := true } [] canLinks
    (∃ mode app, r.2 = .runs mode app) ∧ linuxBox.interfaceIsUp r.1 "vcan0" = true ∧
      linuxBox.interfaceIsUp r.1 "vcan1" = true ∧ linuxBox.Same "can0" canLinks r.1 := by
  intro r
  have hmeant : Says vcanEnv { tui := true } [] vcanConfig :=
    .found rfl rfl (by decide) rfl vcan_document
  obtain ⟨hiff, hruns, hothers, -⟩ := started_up linuxBox_ipLink hmeant (by decide +kernel) rfl
    (fun _ => .error "no log") canLinks
  have hstarted := hiff.mpr ⟨by simp [vcanConfig], fun _ => by decide +kernel⟩
  obtain ⟨mode, app, hr⟩ := hstarted
  have hup := (hruns mode app hr).2.2 rfl
  exact ⟨⟨mode, app, hr⟩, (hup _ List.mem_cons_self (Or.inl rfl)).2,
    (hup _ (List.mem_cons_of_mem _ List.mem_cons_self) (Or.inl rfl)).2, hothers _ (by decide)⟩

end Caneo
