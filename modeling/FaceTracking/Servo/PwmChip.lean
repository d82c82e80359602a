import FaceTracking.Servo.ServoController

/-!
# The kernel's answers to the servo controller

A write to sysfs reaches the kernel when the stdio stream is flushed, which is
in `fclose`, and `writeStr` does not look at what `fclose` says: it reports
whether the file could be opened. So a write has three outcomes and the
controller sees two.

`Outcomes` are the answers that one `init` meets, each of them free, and
`PwmChip` gives them out in the order of the calls. What `init` makes of them
is said stage by stage: `exportChannel_eq`, `configChannel_eq`.
-/

namespace FaceTracking

/-- What becomes of a write. -/
inductive WriteOutcome where
  | notOpened
  /-- Opened, and rejected by the kernel at the flush. -/
  | rejected
  | accepted
deriving DecidableEq, Repr

/-- All that `writeStr` reports. -/
def WriteOutcome.opened : WriteOutcome → Bool
  | .notOpened => false
  | _ => true

structure SysfsWrite where
  path : String
  value : Option Int
  outcome : WriteOutcome
deriving DecidableEq

/-- The answers to come, and the record of what was written. -/
structure PwmChip where
  stats : List Bool
  writes : List WriteOutcome
  log : List SysfsWrite

/-- The file system of a chip. Answers that have run out are failures. -/
def pwmSysfs : Sysfs PwmChip where
  stat s _ := (s.stats.headD false, { s with stats := s.stats.tail })
  write s path value :=
    let o := s.writes.headD .notOpened
    (o.opened, { s with writes := s.writes.tail, log := s.log ++ [⟨path, value, o⟩] })

/-- What a file has been set to last; `none` if the process has not set it. -/
def lastAccepted (log : List SysfsWrite) (path : String) : Option Int :=
  ((log.filter fun w => w.path = path ∧ w.outcome = .accepted).getLast?).bind SysfsWrite.value

/-! ## The answers that one `init` meets -/

/-- The answers for one channel. -/
structure ChannelOutcomes where
  /-- The channel has been exported before. -/
  present : Bool
  exported : WriteOutcome
  /-- How often the directory is looked for in vain. -/
  looks : Nat
  zero : WriteOutcome
  period : WriteOutcome
  duty : WriteOutcome
  enable : WriteOutcome

structure Outcomes where
  pan : ChannelOutcomes
  tilt : ChannelOutcomes

namespace ChannelOutcomes

variable (o : ChannelOutcomes)

/-- The looks at the directory behind the write to `export`. -/
def waits : List Bool :=
  if o.exported.opened then
    if o.looks < 20 then List.replicate o.looks false ++ [true] else List.replicate 20 false
  else []

def stats : List Bool := if o.present then [true] else false :: o.waits

def exportWrites : List WriteOutcome := if o.present then [] else [o.exported]

def configWrites : List WriteOutcome :=
  [o.zero, o.period] ++ if o.period.opened then [o.duty, o.enable] else []

/-- The directory is there, or it appears in time. -/
def exports : Bool := o.present || (o.exported.opened && o.looks < 20)

/-- `period` and `enable` can be opened. -/
def opens : Bool := o.period.opened && o.enable.opened

/-- The kernel accepts both. -/
def Accepted : Prop := o.period = .accepted ∧ o.enable = .accepted

instance : Decidable o.Accepted := inferInstanceAs (Decidable (_ ∧ _))

/-- What is written while a channel is exported. -/
def exportLog (chipPath : String) (ch : Int32) : List SysfsWrite :=
  if o.present then [] else [⟨chipPath ++ "/export", some ch.toInt, o.exported⟩]

/-- What is written while a channel is configured. -/
def configLog (dir : String) (periodNs : Int) (duty : Option Int) : List SysfsWrite :=
  [⟨dir ++ "/duty_cycle", some 0, o.zero⟩, ⟨dir ++ "/period", some periodNs, o.period⟩] ++
    if o.period.opened then
      [⟨dir ++ "/duty_cycle", duty, o.duty⟩, ⟨dir ++ "/enable", some 1, o.enable⟩]
    else []

end ChannelOutcomes

/-- A chip before `init`, with the answers to later writes. -/
def Outcomes.chip (o : Outcomes) (later : List WriteOutcome) : PwmChip :=
  ⟨o.pan.stats ++ o.tilt.stats,
    o.pan.exportWrites ++
      (o.tilt.exportWrites ++ (o.pan.configWrites ++ (o.tilt.configWrites ++ later))), []⟩

/-! ## What the controller makes of them -/

namespace ServoController

variable {c : ServoController PwmChip} {o : ChannelOutcomes} {ss : List Bool}
  {ws : List WriteOutcome} {log : List SysfsWrite} {ch : Int32}

theorem writeStr_eq {w : WriteOutcome} (h : c.fs = ⟨ss, w :: ws, log⟩) (path : String)
    (value : Option Int) :
    c.writeStr pwmSysfs path value =
      (w.opened, { c with fs := ⟨ss, ws, log ++ [⟨path, value, w⟩]⟩ }) := by
  simp only [writeStr, pwmSysfs, h, List.headD_cons, List.tail_cons]

theorem waitFor_appears {k n : Nat} (hk : k < n)
    (h : c.fs = ⟨List.replicate k false ++ true :: ss, ws, log⟩) (dir : String) :
    c.waitFor pwmSysfs dir n = (true, { c with fs := ⟨ss, ws, log⟩ }) := by
  induction n generalizing c k with
  | zero => omega
  | succ n ih =>
    unfold waitFor
    cases k with
    | zero => simp [pwmSysfs, h]
    | succ k =>
      simp only [pwmSysfs, h, List.replicate_succ, List.cons_append, List.headD_cons,
        List.tail_cons, Bool.false_eq_true, ↓reduceIte]
      exact ih (by omega) rfl

theorem waitFor_never {n : Nat} (h : c.fs = ⟨List.replicate n false ++ ss, ws, log⟩)
    (dir : String) :
    c.waitFor pwmSysfs dir n = (false, { c with fs := ⟨ss, ws, log⟩ }) := by
  induction n generalizing c with
  | zero =>
    obtain ⟨fs⟩ := c
    simp only at h
    subst h
    rfl
  | succ n ih =>
    unfold waitFor
    simp only [pwmSysfs, h, List.replicate_succ, List.cons_append, List.headD_cons,
      List.tail_cons, Bool.false_eq_true, ↓reduceIte]
    exact ih rfl

/-- **Exporting** succeeds if the channel is there or its directory appears in time. -/
theorem exportChannel_eq (h : c.fs = ⟨o.stats ++ ss, o.exportWrites ++ ws, log⟩) :
    c.exportChannel pwmSysfs ch =
      (o.exports, { c with fs := ⟨ss, ws, log ++ o.exportLog c.chipPath ch⟩ }) := by
  unfold exportChannel ChannelOutcomes.exports ChannelOutcomes.exportLog
  unfold ChannelOutcomes.stats ChannelOutcomes.exportWrites at h
  cases hpresent : o.present with
  | true =>
    simp only [hpresent, ↓reduceIte] at h
    simp [pwmSysfs, h]
  | false =>
    simp only [hpresent, Bool.false_eq_true, ↓reduceIte, List.cons_append, List.nil_append] at h
    have hstat : pwmSysfs.stat c.fs (c.chanDir ch) =
        (false, ⟨o.waits ++ ss, o.exported :: ws, log⟩) := by
      simp [pwmSysfs, h]
    simp only [hstat, Bool.false_eq_true, ↓reduceIte, Bool.false_or]
    rw [writeStr_eq rfl]
    unfold ChannelOutcomes.waits
    cases hopened : o.exported.opened with
    | false => simp
    | true =>
      by_cases hlooks : o.looks < 20
      · simp only [hlooks, ↓reduceIte, List.append_assoc, List.singleton_append, Bool.true_and,
          decide_true]
        exact waitFor_appears hlooks rfl _
      · simp only [hlooks, ↓reduceIte, Bool.true_and, decide_false]
        exact waitFor_never rfl _

/-- **Configuring** succeeds if `period` and `enable` can be opened. -/
theorem configChannel_eq (h : c.fs = ⟨ss, o.configWrites ++ ws, log⟩) :
    c.configChannel pwmSysfs ch =
      (o.opens,
        { c with
          fs := ⟨ss, ws,
            log ++ o.configLog (c.chanDir ch) c.periodNs.toInt (c.angleToDutyNs (.fin 90))⟩
          duties := c.duties ++ if o.period.opened then [c.angleToDutyNs (.fin 90)] else [] }) := by
  unfold configChannel ChannelOutcomes.opens ChannelOutcomes.configLog
  unfold ChannelOutcomes.configWrites at h
  simp only [List.cons_append, List.nil_append] at h ⊢
  rw [writeStr_eq h, writeStr_eq rfl]
  cases hopened : o.period.opened with
  | false => simp
  | true =>
    simp only [↓reduceIte, List.cons_append, List.nil_append, setChannelAngle]
    rw [writeStr_eq rfl, writeStr_eq rfl]
    simp [chanDir, angleToDutyNs]

/-! ## A whole `init` -/

/-- What `init` writes: each stage is reached if the ones before it succeed. -/
def initLog (o : Outcomes) (c : ServoController PwmChip) : List SysfsWrite :=
  let center := c.angleToDutyNs (.fin 90)
  o.pan.exportLog c.chipPath c.panCh ++
    if o.pan.exports then
      o.tilt.exportLog c.chipPath c.tiltCh ++
        if o.tilt.exports then
          o.pan.configLog (c.chanDir c.panCh) c.periodNs.toInt center ++
            if o.pan.opens then o.tilt.configLog (c.chanDir c.tiltCh) c.periodNs.toInt center
            else []
        else []
    else []

theorem andThen_true (f : ServoController PwmChip → Bool × ServoController PwmChip) :
    andThen (true, c) f = f c := rfl

theorem andThen_false (f : ServoController PwmChip → Bool × ServoController PwmChip) :
    andThen (false, c) f = (false, c) := rfl

/-- **`init`** succeeds if every stage does. -/
theorem init_spec {o : Outcomes} {later : List WriteOutcome} (h : c.fs = o.chip later)
    (hready : c.ready = false) :
    let r := c.init pwmSysfs
    r.1 = (o.pan.exports && o.tilt.exports && o.pan.opens && o.tilt.opens) ∧
      r.2.ready = r.1 ∧ r.2.fs.log = initLog o c := by
  unfold init initLog
  rw [Outcomes.chip, ← List.append_nil o.tilt.stats] at h
  rw [exportChannel_eq h]
  cases o.pan.exports with
  | false => simp [andThen_false, hready]
  | true =>
    rw [andThen_true]
    simp only
    rw [exportChannel_eq rfl]
    cases o.tilt.exports with
    | false => simp [andThen_false, hready]
    | true =>
      rw [andThen_true]
      simp only
      rw [configChannel_eq rfl]
      cases o.pan.opens with
      | false => simp [andThen_false, hready, chanDir, angleToDutyNs]
      | true =>
        rw [andThen_true]
        simp only
        rw [configChannel_eq rfl]
        simp [hready, chanDir, angleToDutyNs]

end ServoController

end FaceTracking
