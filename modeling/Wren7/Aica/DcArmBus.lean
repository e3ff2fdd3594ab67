import Mathlib.Data.List.Sort
import Mathlib.Data.Rat.Floor
import Wren7.Aica.RegBlock

/-!
# The sound system's bus

`DcArmBus` of `dc_arm_map.h` / `dc_arm_map.cpp`: the wave RAM, the wait states, the schedule of the
wave RAM slots, the SH4's accesses and the answer to a bus cycle. Times of the SH4 are rationals in
place of the code's `double`; wave RAM contents, registers and wait counts are as wide as in the code.
-/

namespace Wren7

open Bits

/-- Wait states per access, fixed or from the slot grid. -/
structure DcWaits where
  ramRn : Word := 0
  ramRs : Word := 0
  ramWn : Word := 0
  ramWs : Word := 0
  regR : Word := 0
  regW : Word := 0
  internal : Word := 0
  /-- Slot-grid mode if positive: a memory cycle starts on a multiple of `grid`. -/
  grid : ℕ := 0
  access : Word := 8
  lockedWrite : Word := 4
  blockPeriod : ℕ := 0
  blockPhase : ℕ := 0
  blockSet : List (BitVec 8) := []
  dspSlots : Bool := false

/-- The console as measured. -/
def DcWaits.dreamcast : DcWaits where
  grid := 4
  access := 8
  lockedWrite := 4
  dspSlots := true

/-- A register by its byte offset. -/
def regAt (off : ℕ) : RegNo := regNo (BitVec.ofNat 32 off)

/-- What the harness sets up, and no function of the bus changes, with the measured values. The SH4's
counts and distances are not negative. -/
structure DcConfig where
  waits : DcWaits := {}
  dspPhase : ℤ := 40
  dspPortOff : ℤ := 0
  fixedSteps : List ℤ := [109, 111]
  sgcStep0 : ℤ := -14
  adpcmOrigin : ℤ := 0
  sh4Period : ℚ := 0
  sh4Phase : ℚ := 0
  /-- Slots per access of the periodic generator. -/
  sh4Count : ℕ := 1
  sh4Spacing : ℕ := 4
  sh4EvenOnly : Bool := false
  sh4ReadLatency : ℚ := 0

/-- The bus. -/
structure DcArmBus (ρ : Type*) where
  block : RegBlock ρ
  cfg : DcConfig
  ram : BitVec 21 → BitVec 8
  regAccesses : ℕ
  blockedHits : ℕ
  gridWait : Word
  /-- The step boundaries taken by the SH4, sorted, pruned as time passes. -/
  sh4Slots : List ℕ
  sh4Next : ℚ
  /-- The wave RAM slots of the DSP and of the fixed user, by step. -/
  slots : ℕ → Bool

namespace DcArmBus

variable {ρ : Type*} (b : DcArmBus ρ)

/-- A new bus with an empty wave RAM and no hook, and the sample clock as the harness sets it up. -/
def new (cfg : DcConfig) (period phase latency : ℕ) : DcArmBus ρ where
  block := RegBlock.new period phase latency none
  cfg := cfg
  ram := fun _ => 0
  regAccesses := 0
  blockedHits := 0
  gridWait := 0
  sh4Slots := []
  sh4Next := -1
  slots := fun _ => false

@[simps -fullyApplied]
def setBlock (r : RegBlock ρ) : DcArmBus ρ := { b with block := r }

@[simps -fullyApplied]
def setRam (f : BitVec 21 → BitVec 8) : DcArmBus ρ := { b with ram := f }

@[simps -fullyApplied]
def setSlots (f : ℕ → Bool) : DcArmBus ρ :=
  { b with slots := f, block := b.block.setDirty false }

@[simps -fullyApplied]
def setSh4Slots (l : List ℕ) : DcArmBus ρ := { b with sh4Slots := l }

@[simps -fullyApplied]
def setSh4Next (t : ℚ) : DcArmBus ρ := { b with sh4Next := t }

@[simps -fullyApplied]
def setGridWait (w : Word) : DcArmBus ρ := { b with gridWait := w }

@[simps -fullyApplied]
def countHit : DcArmBus ρ := { b with blockedHits := b.blockedHits + 1 }

@[simps -fullyApplied]
def countAccess : DcArmBus ρ := { b with regAccesses := b.regAccesses + 1 }

/-! ### Wave RAM -/

/-- The index of an address in the wave RAM. -/
def ramIndex (addr : Word) : BitVec 21 := addr.setWidth 21

/-- The index of the first byte of the aligned word at an address. -/
def wordIndex (addr : Word) : BitVec 21 := ramIndex addr &&& ~~~3

def rd32 (addr : Word) : Word :=
  b.ram (wordIndex addr + 3) ++ b.ram (wordIndex addr + 2) ++ b.ram (wordIndex addr + 1) ++
    b.ram (wordIndex addr)

def wr8 (i : BitVec 21) (v : BitVec 8) : DcArmBus ρ := b.setRam (Function.update b.ram i v)

def wr32 (addr : Word) (v : Word) : DcArmBus ρ :=
  (((b.wr8 (wordIndex addr) (v.setWidth 8)).wr8 (wordIndex addr + 1) ((v >>> 8).setWidth 8)).wr8
    (wordIndex addr + 2) ((v >>> 16).setWidth 8)).wr8 (wordIndex addr + 3) ((v >>> 24).setWidth 8)

/-- `load`: bytes from an address on. -/
def load (addr : Word) : List (BitVec 8) → DcArmBus ρ → DcArmBus ρ
  | [], b => b
  | v :: vs, b => load (addr + 1) vs (b.wr8 (ramIndex addr) v)

/-! ### The wave RAM slots of the sound generator and the DSP -/

/-- `adpcm_fetch`: whether an ADPCM channel fetches in an SGC sample. -/
def adpcmFetch (ch : ℕ) (n : ℤ) : Bool :=
  let r0 := b.block.store (regAt (0x80 * ch))
  let r4 := b.block.store (regAt (0x80 * ch + 0x04))
  let r18 := b.block.store (regAt (0x80 * ch + 0x18))
  let o4 := (r18.extractLsb' 11 4).toNat
  if 3 ≤ o4 ∧ o4 ≤ 7 then false
  else
    let m := 1024 + (r18.extractLsb' 0 10).toNat
    let incr := if o4 < 8 then m <<< (o4 + 4) else if 12 ≤ o4 then m <<< (o4 - 12) else m >>> (12 - o4)
    let sa := ((r0 &&& 0x7F).toNat <<< 16) ||| r4.toNat
    let n := n - b.cfg.adpcmOrigin
    let pos (i : ℤ) : ℕ := if 0 < i then (i.toNat * incr % 2 ^ 64) >>> 14 else 0
    let word (p : ℕ) : ℕ := (sa + p / 2) / 2
    let p1 := pos n
    let p0 := pos (n - 1)
    word p1 ≠ word p0 ∨ word (p1 + 1) ≠ word p1

/-- The sound generator's half of `slot_used`: a keyed-on channel fetches in the slot. -/
def channelFetch (step : ℕ) (sample : ℤ) : Bool :=
  let k := (((step % 128 : ℕ) : ℤ) - b.cfg.sgcStep0) % 128
  if k % 2 = 0 then
    let ch := (k / 2).toNat
    let r0 := b.block.store (regAt (0x80 * ch))
    if bit r0 14 then
      if (r0.extractLsb' 7 2).toNat < 2 then true
      else b.adpcmFetch ch (sample - 1024 + if ch < 7 then 1 else 0)
    else false
  else false

/-- The DSP accesses the wave RAM in a step: MRD or MWT. -/
def dspAccess (step : ℕ) : Bool := b.block.store (regAt (0x3408 + 16 * step)) &&& 0x6000 ≠ 0

/-- The placement of the fixed user's accesses: each at its nominal step if the DSP leaves it free,
else one step either side, two consecutive ones at least two steps apart; the first placement in
that order. -/
def place (dsp : ℕ → Bool) : Option ℤ → List ℤ → Option (List ℤ)
  | _, [] => some []
  | prev, n :: rest =>
    let held (c : ℤ) : Bool := dsp (c % 128).toNat
    let options := if held n then [n - 1, n, n + 1] else [n, n - 1, n + 1]
    options.findSome? fun c =>
      if held c || (c ≠ n && !held n) then none
      else if prev.any fun p => c - p < 2 then none
      else (place dsp (some c) rest).map (c :: ·)

/-- The steps of the fixed user. -/
def fixedPlaces : List ℤ := (place b.dspAccess none b.cfg.fixedSteps).getD b.cfg.fixedSteps

/-- The slots that the DSP and the fixed user take. -/
def schedule (step : ℕ) : Bool :=
  b.dspAccess step || b.fixedPlaces.any fun c => c % 128 = step

/-- The schedule is rebuilt where a register it depends on was written. -/
def refreshed : DcArmBus ρ := if b.block.slotsDirty then b.setSlots b.schedule else b

def slotUsed (step : ℕ) (sample : ℤ) : Bool × DcArmBus ρ :=
  if b.channelFetch step sample then (true, b)
  else (b.refreshed.slots (step % 128), b.refreshed)

/-- The DSP step at a time. -/
def dspStep (t : ℤ) : ℕ := ((t - b.block.samplePhase - b.cfg.dspPhase) % 512).toNat / 4

/-- The DSP sample of a time, from 1024 samples before step 0 on. -/
def dspSample (t : ℤ) : ℤ := (t - b.block.samplePhase - b.cfg.dspPhase + 512 * 1024).tdiv 512

/-- The slot at a step boundary is taken by the DSP, the fixed user or the sound generator. -/
def slotUsedAt (g : ℕ) : Bool × DcArmBus ρ := b.slotUsed (b.dspStep g) (b.dspSample g)

def freeAt (g : ℕ) : Bool × DcArmBus ρ :=
  let u := b.slotUsedAt g
  (!u.1 && !u.2.sh4Slots.contains g, u.2)

/-! ### SH4 accesses -/

/-- The loop of `sh4_access` for one slot. -/
def sh4Search : (guard g : ℕ) → DcArmBus ρ → ℕ × DcArmBus ρ
  | 0, g, b => (g, b)
  | guard + 1, g, b =>
    let u := b.slotUsedAt g
    if u.1 then sh4Search guard (g + 4) u.2
    else if u.2.sh4Slots.contains g then sh4Search guard (g + 4) u.2
    else (g, u.2)

def sh4Insert (g : ℕ) : DcArmBus ρ := b.setSh4Slots (b.sh4Slots.orderedInsert (· ≤ ·) g)

/-- The slots of one access, from `g` on; the last one is returned. -/
def sh4Take : (n g last : ℕ) → DcArmBus ρ → ℕ × DcArmBus ρ
  | 0, _, last, b => (last, b)
  | n + 1, g, _, b =>
    let r := sh4Search 256 g b
    sh4Take n (r.1 + b.cfg.sh4Spacing) r.1 (r.2.sh4Insert r.1)

/-- Where the search for an access's first slot begins. -/
def sh4Request (t : ℕ) : ℕ :=
  let g := (t + 3) / 4 * 4
  if b.cfg.sh4EvenOnly ∧ b.dspStep g % 2 = 1 then g + 4 else g

/-- `sh4_access`: an access that arrives at `t` and takes `n` slots. -/
def sh4Access (t n : ℕ) : ℕ × DcArmBus ρ := sh4Take n (b.sh4Request t) 0 b

/-- One arrival of the periodic generator. -/
def sh4Arrive : DcArmBus ρ :=
  let issue := b.sh4Next
  let r := b.sh4Access ⌊issue⌋₊ b.cfg.sh4Count
  r.2.setSh4Next <|
    if 0 < b.cfg.sh4ReadLatency then max (r.1 + 8 + b.cfg.sh4ReadLatency) (issue + b.cfg.sh4Period)
    else issue + b.cfg.sh4Period

/-- The arrivals up to time `t`. -/
def sh4Arrivals (t : ℕ) : (fuel : ℕ) → DcArmBus ρ → DcArmBus ρ
  | 0, b => b
  | fuel + 1, b => if b.sh4Next ≤ t then sh4Arrivals t fuel b.sh4Arrive else b

/-- Slots far in the past are dropped. -/
def sh4Prune (t : ℕ) : DcArmBus ρ := b.setSh4Slots (b.sh4Slots.dropWhile fun g => g + 1024 < t)

/-- `sh4_advance`. Every arrival moves the next one by a period at least, so the number of them up to
time `t` is bounded. -/
def sh4Advance (t : ℕ) : DcArmBus ρ :=
  let b :=
    if 0 < b.cfg.sh4Period then
      let b := if b.sh4Next < 0 then b.setSh4Next b.cfg.sh4Phase else b
      sh4Arrivals t (⌊(t - b.sh4Next) / b.cfg.sh4Period⌋₊ + 1) b
    else b
  b.sh4Prune t

/-! ### Where a memory cycle starts -/

/-- An address of the wave RAM; the others are AICA registers. -/
def inRam (addr : Word) : Bool := !bit addr 23

/-- The ARM interrupt controller's window, L and M. -/
def isLocal (addr : Word) : Bool := !inRam addr && addr &&& 0x7FF8 = 0x2D00

def isTemp (addr : Word) : Bool :=
  !inRam addr && 0x4000 ≤ addr &&& 0x7FFF && addr &&& 0x7FFF < 0x4400

def isEfreg (addr : Word) : Bool :=
  !inRam addr && 0x4580 ≤ addr &&& 0x7FFF && addr &&& 0x7FFF < 0x45C0

/-- The DSP writes TEMP (TWT) or EFREG (EWT) in the step whose CPU port an access would use. -/
def portBusy (addr : Word) (start : ℕ) : Bool :=
  let step := b.dspStep (start + b.cfg.dspPortOff)
  isTemp addr && bit (b.block.store (regAt (0x3400 + 16 * step))) 8 ||
    isEfreg addr && bit (b.block.store (regAt (0x3408 + 16 * step))) 12

def portSearch (addr : Word) : (guard start : ℕ) → ℕ
  | 0, start => start
  | guard + 1, start =>
    if b.portBusy addr start then portSearch addr guard (start + b.cfg.waits.grid) else start

/-- The search for a free wave RAM slot; the SH4's arrivals are kept 64 MCLK ahead of it. -/
def ramSearch : (guard start : ℕ) → DcArmBus ρ → ℕ × DcArmBus ρ
  | 0, start, b => (start, b)
  | guard + 1, start, b =>
    let f := b.freeAt start
    if f.1 then (start, f.2)
    else
      ramSearch guard (start + b.cfg.waits.grid)
        (f.2.countHit.sh4Advance (start + b.cfg.waits.grid + 64))

/-- A grid point is blocked by `block_period` or `block_set`. -/
def blocked (start : ℕ) : Bool :=
  let w := b.cfg.waits
  let p := (start + w.blockPhase) % w.blockPeriod
  if w.blockSet = [] then p = 0 else w.blockSet.getD (p / w.grid) 0 ≠ 0

/-- The search for a grid point that is not blocked. The points repeat after `block_period` steps: if
none of these is free, the code's loop has no end. -/
def blockSearch : (fuel start : ℕ) → DcArmBus ρ → ℕ × DcArmBus ρ
  | 0, start, b => (start, b)
  | fuel + 1, start, b =>
    if b.blocked start then
      blockSearch fuel (start + b.cfg.waits.grid)
        (if b.cfg.waits.blockSet = [] then b else b.countHit)
    else (start, b)

/-- The start of a memory cycle in slot-grid mode. -/
def gridStart (c : BusCycle) : ℕ × DcArmBus ρ :=
  let w := b.cfg.waits
  let start := (c.t + w.grid - 1) / w.grid * w.grid
  let start :=
    if isTemp c.addr || isEfreg c.addr then b.portSearch c.addr 256 start else start
  if inRam c.addr && w.dspSlots then ramSearch 256 start (b.sh4Advance (start + 64))
  else if inRam c.addr && w.blockPeriod ≠ 0 then blockSearch w.blockPeriod start b
  else (start, b)

/-- The length of a memory cycle in slot-grid mode. -/
def cycleLength (c : BusCycle) : Word :=
  if c.flags.write && c.flags.lock then b.cfg.waits.lockedWrite else b.cfg.waits.access

/-- The wait of a memory cycle in slot-grid mode is worked out. -/
def arbitrated (c : BusCycle) : DcArmBus ρ :=
  if b.cfg.waits.grid = 0 then b
  else if isLocal c.addr then b.setGridWait 0
  else
    let r := b.gridStart c
    r.2.setGridWait (BitVec.ofNat 32 (r.1 - c.t) + r.2.cycleLength c - 1)

/-- The wait of a memory cycle. -/
def waitOf (c : BusCycle) : ℕ :=
  let w := b.cfg.waits
  if w.grid ≠ 0 then b.gridWait.toNat
  else if inRam c.addr then
    if c.flags.write then (if c.type = .N then w.ramWn else w.ramWs).toNat
    else (if c.type = .N then w.ramRn else w.ramRs).toNat
  else if c.flags.write then w.regW.toNat
  else w.regR.toNat

/-! ### A bus cycle -/

variable [AicaRegs ρ]

/-- The data transfer of a memory cycle. -/
def access (c : BusCycle) : Word × DcArmBus ρ :=
  if inRam c.addr then
    if c.flags.write then
      (0,
        if c.flags.byte then
          b.wr8 (ramIndex c.addr) ((c.wdata >>> (8 * (field c.addr 0 2).toNat)).setWidth 8)
        else b.wr32 c.addr c.wdata)
    else (b.rd32 c.addr, b)
  else
    let r := b.block.regCycle c
    (r.1.setWidth 32, b.countAccess.setBlock r.2)

omit [AicaRegs ρ] in
/-- `tick`: the sample clock. -/
def tick (t : ℕ) : DcArmBus ρ := b.setBlock (b.block.sampleClock t)

def cycle (c : BusCycle) : BusResult × DcArmBus ρ :=
  let b := b.tick c.t
  if !c.type.isMem then
    (⟨0, if b.cfg.waits.grid ≠ 0 then 0 else b.cfg.waits.internal.toNat, false⟩, b)
  else
    let b := b.arbitrated c
    let r := b.access c
    (⟨r.1, b.waitOf c, false⟩, r.2)

/-! ### The harness -/

omit [AicaRegs ρ] in
/-- `attach`: the bus drives the line of a core from now on. -/
def attach (level : Bool) : DcArmBus ρ := b.setBlock { b.block with core := some level }

/-- `reg_write`: the SH4 side. -/
def regWrite (off : Word) (v : BitVec 16) : DcArmBus ρ := b.setBlock (b.block.regWrite off v)

end DcArmBus

end Wren7
