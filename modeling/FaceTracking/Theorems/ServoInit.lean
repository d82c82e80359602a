import FaceTracking.Servo.PwmChip

/-!
# Servo initialisation

`init` is all or nothing just if no answer of the kernel takes it down one of
two paths (`servo_init`): a `period` or `enable` that is opened and then
rejected at the flush, which `init` does not see, and a second channel that
cannot be opened after the first has been enabled, which `release` does not
undo because `ready` is still false.
-/

namespace FaceTracking

/-! ## What a log leaves enabled -/

section Log

variable {l l' : List SysfsWrite} {path : String} {value : Option Int}

theorem lastAccepted_append (h : ∀ w ∈ l', w.path = path → w.outcome ≠ .accepted) :
    lastAccepted (l ++ l') path = lastAccepted l path := by
  have hnil : (l'.filter fun w => w.path = path ∧ w.outcome = .accepted) = [] := by
    rw [List.filter_eq_nil_iff]
    intro w hw
    simpa using h w hw
  rw [lastAccepted, List.filter_append, hnil, List.append_nil, lastAccepted]

theorem lastAccepted_eq_none (h : ∀ w ∈ l, w.path = path → w.outcome ≠ .accepted) :
    lastAccepted l path = none :=
  lastAccepted_append (l := []) h

theorem lastAccepted_concat : lastAccepted (l ++ [⟨path, value, .accepted⟩]) path = value := by
  simp [lastAccepted]

end Log

/-! ## Which writes go to `enable` -/

section Paths

variable {a b : String}

theorem ne_enable {s : String} (h : s.toList.reverse.take 3 ≠ ['e', 'l', 'b'])
    (hlen : 3 ≤ s.toList.length) : a ++ s ≠ b ++ "/enable" := by
  intro heq
  have hrev := congrArg (fun p : String => p.toList.reverse.take 3) heq
  simp only [String.toList_append, List.reverse_append] at hrev
  rw [List.take_append_of_le_length (by simpa using hlen)] at hrev
  exact h hrev

namespace ChannelOutcomes

variable {o : ChannelOutcomes} {chipPath dir : String} {ch : Int32} {periodNs : Int}
  {duty : Option Int} {w : SysfsWrite}

/-- Exporting a channel does not enable one. -/
theorem exportLog_ne_enable (hw : w ∈ o.exportLog chipPath ch) : w.path ≠ b ++ "/enable" := by
  unfold exportLog at hw
  split at hw
  · cases hw
  · rw [List.mem_singleton.mp hw]
    exact ne_enable (by decide +kernel) (by decide +kernel)

/-- A write to `enable` is the last one, and it goes to the channel's own. -/
theorem configLog_enable (hw : w ∈ o.configLog dir periodNs duty) (hpath : w.path = b ++ "/enable") :
    w.outcome = o.enable ∧ o.period.opened := by
  unfold configLog at hw
  have hduty {value : Option Int} {r : WriteOutcome} (h : w = ⟨dir ++ "/duty_cycle", value, r⟩) :
      False :=
    ne_enable (by decide +kernel) (by decide +kernel) ((congrArg SysfsWrite.path h).symm.trans hpath)
  have hperiod (h : w = ⟨dir ++ "/period", some periodNs, o.period⟩) : False :=
    ne_enable (by decide +kernel) (by decide +kernel) ((congrArg SysfsWrite.path h).symm.trans hpath)
  split at hw
  · rename_i hopened
    simp only [List.cons_append, List.nil_append, List.mem_cons, List.not_mem_nil, or_false] at hw
    rcases hw with hw | hw | hw | hw
    · exact (hduty hw).elim
    · exact (hperiod hw).elim
    · exact (hduty hw).elim
    · exact ⟨congrArg SysfsWrite.outcome hw, hopened⟩
  · simp only [List.append_nil, List.mem_cons, List.not_mem_nil, or_false] at hw
    rcases hw with hw | hw
    · exact (hduty hw).elim
    · exact (hperiod hw).elim

/-- Only a channel that opens, and whose `enable` is accepted, is enabled. -/
theorem configLog_not_accepted (h : ¬ (o.opens ∧ o.enable = .accepted))
    (hw : w ∈ o.configLog dir periodNs duty) (hpath : w.path = b ++ "/enable") :
    w.outcome ≠ .accepted := by
  obtain ⟨houtcome, hopened⟩ := configLog_enable hw hpath
  intro haccepted
  have henable : o.enable = .accepted := houtcome ▸ haccepted
  refine h ⟨?_, henable⟩
  rw [opens, hopened, henable]
  rfl

/-- A channel that opens and whose `enable` is accepted has that as its last write. -/
theorem configLog_accepted (hopens : o.opens) (henable : o.enable = .accepted) (dir : String)
    (periodNs : Int) (duty : Option Int) :
    ∃ l, o.configLog dir periodNs duty = l ++ [⟨dir ++ "/enable", some 1, .accepted⟩] := by
  have hopened : o.period.opened = true := (Bool.and_eq_true_iff.mp hopens).1
  exact ⟨[_, _, _], by simp only [configLog, hopened, henable, ↓reduceIte]; rfl⟩

/-- What opens is accepted unless it is rejected at the flush. -/
theorem accepted_iff (hopens : o.opens) :
    o.Accepted ↔ o.period ≠ .rejected ∧ o.enable ≠ .rejected := by
  unfold opens at hopens
  unfold Accepted
  cases hperiod : o.period <;> cases henable : o.enable <;>
    simp_all [WriteOutcome.opened]

end ChannelOutcomes

end Paths

/-! ## All or nothing -/

/-- Initialisation is all or nothing, for a controller `c` that meets the outcomes `o`. -/
structure AllOrNothing (o : Outcomes) (c : ServoController PwmChip) : Prop where
  /-- `init` returns true, and `setAngles` does anything, only if the kernel accepted what
  configures the two channels. -/
  accepted : (c.init pwmSysfs).1 = true ∨
      (∃ pan tilt, (((c.init pwmSysfs).2.setAngles pwmSysfs pan tilt).fs.log ≠
        (c.init pwmSysfs).2.fs.log)) →
    o.pan.Accepted ∧ o.tilt.Accepted
  /-- If it returns false then no channel is left enabled after `release`. -/
  released : (c.init pwmSysfs).1 = false → ∀ ch ∈ [c.panCh, c.tiltCh],
    lastAccepted ((c.init pwmSysfs).2.release pwmSysfs).fs.log (c.chanDir ch ++ "/enable") ≠ some 1

/-- Everything can be opened, and the kernel rejects a `period` or an `enable` at the flush. -/
def Outcomes.Swallowed (o : Outcomes) : Prop :=
  o.pan.opens ∧ o.tilt.opens ∧
    WriteOutcome.rejected ∈ [o.pan.period, o.pan.enable, o.tilt.period, o.tilt.enable]

/-- The pan channel is enabled, and the tilt channel cannot be opened. -/
def Outcomes.Abandoned (o : Outcomes) : Prop :=
  o.pan.opens ∧ o.pan.enable = .accepted ∧ ¬ o.tilt.opens

namespace ServoController

variable {o : Outcomes} {c : ServoController PwmChip} {later : List WriteOutcome}

/-- If a stage fails and the pan channel is not enabled by then, no channel is. -/
theorem initLog_not_enabled
    (hfail : ¬ (o.pan.exports ∧ o.tilt.exports ∧ o.pan.opens ∧ o.tilt.opens))
    (h : ¬ ((o.pan.exports ∧ o.tilt.exports) ∧ o.Abandoned)) (b : String) :
    lastAccepted (initLog o c) (b ++ "/enable") = none := by
  refine lastAccepted_eq_none fun w hw hpath => ?_
  have hexport {r : ChannelOutcomes} {ch : Int32} (hw : w ∈ r.exportLog c.chipPath ch) :
      w.outcome ≠ .accepted := (ChannelOutcomes.exportLog_ne_enable hw hpath).elim
  unfold initLog at hw
  rcases List.mem_append.mp hw with hw | hw
  · exact hexport hw
  split at hw
  case isFalse => cases hw
  rename_i hpan
  rcases List.mem_append.mp hw with hw | hw
  · exact hexport hw
  split at hw
  case isFalse => cases hw
  rename_i htilt
  -- both channels are exported, so the tilt channel does not open or the pan channel does not
  have htiltopens (hopens : o.pan.opens = true) : ¬ o.tilt.opens = true := fun ht =>
    hfail ⟨hpan, htilt, hopens, ht⟩
  rcases List.mem_append.mp hw with hw | hw
  · refine ChannelOutcomes.configLog_not_accepted ?_ hw hpath
    exact fun ⟨hopens, henable⟩ => h ⟨⟨hpan, htilt⟩, hopens, henable, htiltopens hopens⟩
  · split at hw
    case isFalse => cases hw
    rename_i hopens
    exact ChannelOutcomes.configLog_not_accepted (fun ht => htiltopens hopens ht.1) hw hpath

/-- If the tilt channel fails after the pan channel is enabled, the pan channel stays so. -/
theorem initLog_enabled (hexports : o.pan.exports ∧ o.tilt.exports) (h : o.Abandoned) :
    lastAccepted (initLog o c) (c.chanDir c.panCh ++ "/enable") = some 1 := by
  obtain ⟨hopens, henable, htilt⟩ := h
  obtain ⟨l, hl⟩ := ChannelOutcomes.configLog_accepted hopens henable (c.chanDir c.panCh)
    c.periodNs.toInt (c.angleToDutyNs (.fin 90))
  simp only [initLog, hexports, hopens, ↓reduceIte, hl, ← List.append_assoc]
  rw [lastAccepted_append, lastAccepted_concat]
  intro w hw hpath
  exact ChannelOutcomes.configLog_not_accepted (fun ht => htilt ht.1) hw hpath

/-- If every stage succeeds, all is accepted unless something is rejected at the flush. -/
theorem accepted_iff_not_swallowed (hpan : o.pan.opens) (htilt : o.tilt.opens) :
    o.pan.Accepted ∧ o.tilt.Accepted ↔ ¬ o.Swallowed := by
  rw [ChannelOutcomes.accepted_iff hpan, ChannelOutcomes.accepted_iff htilt]
  unfold Outcomes.Swallowed
  simp only [hpan, htilt, true_and, List.mem_cons, List.not_mem_nil, or_false]
  grind

/-- A controller that is not ready does nothing more. -/
theorem not_ready (h : c.ready = false) :
    (∀ pan tilt, c.setAngles pwmSysfs pan tilt = c) ∧ c.release pwmSysfs = c := by
  simp [setAngles, release, h]

/-- If `init` returns true, only what it says of the kernel can be wrong. -/
theorem allOrNothing_of_true (htrue : (c.init pwmSysfs).1 = true) (hpan : o.pan.opens)
    (htilt : o.tilt.opens) : AllOrNothing o c ↔ ¬ o.Swallowed := by
  have hiff := accepted_iff_not_swallowed hpan htilt
  constructor
  · intro h
    exact hiff.mp (h.accepted (.inl htrue))
  · intro h
    refine ⟨fun _ => hiff.mpr h, fun hfalse => ?_⟩
    rw [htrue] at hfalse
    cases hfalse

/-- If it returns false, only what it leaves behind can be wrong. -/
theorem allOrNothing_of_false (hfalse : (c.init pwmSysfs).1 = false)
    (hready : (c.init pwmSysfs).2.ready = false) :
    AllOrNothing o c ↔ ∀ ch ∈ [c.panCh, c.tiltCh],
      lastAccepted (c.init pwmSysfs).2.fs.log (c.chanDir ch ++ "/enable") ≠ some 1 := by
  obtain ⟨hset, hrelease⟩ := not_ready hready
  constructor
  · intro h
    have := h.released hfalse
    rwa [hrelease] at this
  · intro h
    refine ⟨?_, fun _ => by rwa [hrelease]⟩
    rintro (htrue | ⟨pan, tilt, hchanged⟩)
    · rw [hfalse] at htrue
      cases htrue
    · rw [hset] at hchanged
      exact (hchanged rfl).elim

/-- **Initialisation is all or nothing** for a new controller just if, when both channels can
be exported, the kernel neither rejects a `period` or `enable` of two channels that open, nor
fails to open the tilt channel after it has enabled the pan channel. -/
theorem servo_init (o : Outcomes) (later : List WriteOutcome) (chipPath : String)
    (panCh tiltCh periodNs minDutyNs maxDutyNs : Int32) :
    AllOrNothing o
        (create (o.chip later) chipPath panCh tiltCh periodNs minDutyNs maxDutyNs) ↔
      ¬ ((o.pan.exports ∧ o.tilt.exports) ∧ (o.Swallowed ∨ o.Abandoned)) := by
  set c := create (o.chip later) chipPath panCh tiltCh periodNs minDutyNs maxDutyNs
  obtain ⟨hresult, hready, hlog⟩ := init_spec (c := c) (show c.fs = o.chip later from rfl) rfl
  by_cases hstages : o.pan.exports ∧ o.tilt.exports ∧ o.pan.opens ∧ o.tilt.opens
  · obtain ⟨hpan, htilt, hopens, hopens'⟩ := hstages
    have htrue : (c.init pwmSysfs).1 = true := by
      rw [hresult, hpan, htilt, hopens, hopens']
      rfl
    have habandoned : ¬ o.Abandoned := fun h => h.2.2 hopens'
    rw [allOrNothing_of_true htrue hopens hopens']
    simp only [hpan, htilt, habandoned, and_self, true_and, or_false]
  · have hfalse : (c.init pwmSysfs).1 = false := by
      rw [hresult, Bool.eq_false_iff]
      simpa [and_assoc] using hstages
    have hswallowed (hexports : o.pan.exports ∧ o.tilt.exports) : ¬ o.Swallowed := fun h =>
      hstages ⟨hexports.1, hexports.2, h.1, h.2.1⟩
    rw [allOrNothing_of_false hfalse (hready.trans hfalse), hlog]
    constructor
    · rintro h ⟨hexports, hs | habandoned⟩
      · exact hswallowed hexports hs
      · exact h c.panCh List.mem_cons_self (initLog_enabled hexports habandoned)
    · intro h ch _
      rw [initLog_not_enabled hstages fun h' => h ⟨h'.1, .inr h'.2⟩]
      exact nofun

/-! ## The two paths -/

/-- A channel whose directory is there and whose writes are all accepted. -/
def allAccepted : ChannelOutcomes :=
  ⟨true, .accepted, 0, .accepted, .accepted, .accepted, .accepted⟩

/-- The pan channel's period is rejected at the flush. -/
def swallowed : Outcomes := ⟨{ allAccepted with period := .rejected }, allAccepted⟩

/-- The tilt channel's `period` cannot be opened. -/
def abandoned : Outcomes := ⟨allAccepted, { allAccepted with period := .notOpened }⟩

/-- `init` returns true although the kernel has rejected the pan channel's period; and it
returns false with the pan channel left enabled, before and after `release`. -/
theorem init_half_done :
    ¬ AllOrNothing swallowed (default (swallowed.chip [])) ∧
      ¬ AllOrNothing abandoned (default (abandoned.chip [])) := by
  refine ⟨fun h => ?_, fun h => ?_⟩
  · have haccepted := h.accepted (.inl (by decide +kernel))
    exact absurd haccepted.1.1 nofun
  · exact h.released (by decide +kernel) 0 List.mem_cons_self (by decide +kernel)

end ServoController

end FaceTracking
