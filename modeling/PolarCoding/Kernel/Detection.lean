/-!
# Instruction sets, kernels and log events

A kernel is one way to compute a codeword. The scalar kernel runs everywhere; the others work on
registers of sixteen byte lanes and depend on the instruction set and on where the buffers start.
The instruction set is detected once. Later requests are answered from memory and log nothing.
-/

namespace PolarCoding

/-! ## Instruction sets -/

inductive Isa where
  | ssse3
  | neon
  /-- No usable vector extension: registers are plain arrays. -/
  | portable
  deriving DecidableEq

inductive Architecture where
  | x86
  | aarch64
  | other
  deriving DecidableEq

/-- What the detection can learn about a machine. -/
structure Platform where
  architecture : Architecture
  /-- Whether the processor reports the byte shuffle of x86. No other architecture is asked. -/
  hasByteShuffle : Bool
  deriving DecidableEq

/-- The machine that the library is run on: x86-64 with byte shuffles. Nothing that is proved of
encoders depends on this choice. -/
def Platform.host : Platform := ⟨.x86, true⟩

namespace Isa

def label : Isa → String
  | .ssse3 => "Ssse3"
  | .neon => "Neon"
  | .portable => "Portable"

def probe (platform : Platform) : Isa :=
  match platform.architecture with
  | .x86 => if platform.hasByteShuffle then .ssse3 else .portable
  | .aarch64 => .neon
  | .other => .portable

/-- There are machines of every kind. -/
theorem exists_probe_eq (isa : Isa) : ∃ platform, probe platform = isa := by
  cases isa with
  | ssse3 => exact ⟨⟨.x86, true⟩, rfl⟩
  | neon => exact ⟨⟨.aarch64, false⟩, rfl⟩
  | portable => exact ⟨⟨.other, false⟩, rfl⟩

def host : Isa := probe .host

end Isa

/-! ## Kernels -/

inductive Kernel where
  /-- One symbol at a time, one stage per pass. -/
  | generic
  /-- Array-backed registers, any buffer address. -/
  | portable
  /-- Array-backed registers through the aligned access path. -/
  | portableAligned
  /-- SSSE3 registers, any buffer address. -/
  | ssse3
  /-- SSSE3 registers with aligned loads and stores. -/
  | ssse3Aligned
  /-- NEON registers. -/
  | neon
  deriving DecidableEq

namespace Kernel

def all : List Kernel := [.generic, .portable, .portableAligned, .ssse3, .ssse3Aligned, .neon]

def name : Kernel → String
  | .generic => "generic"
  | .portable => "portable"
  | .portableAligned => "portable_aligned"
  | .ssse3 => "ssse3"
  | .ssse3Aligned => "ssse3_aligned"
  | .neon => "neon"

@[simp] theorem mem_all (kernel : Kernel) : kernel ∈ all := by
  cases kernel <;> decide

end Kernel

/-! ## Log events -/

inductive LogLevel where
  | debug
  | trace
  deriving DecidableEq

def LogLevel.name : LogLevel → String
  | .debug => "DEBUG"
  | .trace => "TRACE"

inductive LogEvent where
  /-- The instruction set was detected. -/
  | isaSelected (isa : Isa)
  /-- An encoder was built. -/
  | encoderCreated (frameSize infoBits stages : UInt32)
  /-- A frame is about to be encoded. -/
  | encodingFrame (kernel : Kernel) (frameSize : UInt32)
  deriving DecidableEq

namespace LogEvent

def level : LogEvent → LogLevel
  | .isaSelected _ => .debug
  | .encoderCreated .. => .debug
  | .encodingFrame .. => .trace

def message : LogEvent → String
  | .isaSelected _ => "selected polar encoding instruction set"
  | .encoderCreated .. => "created polar encoder"
  | .encodingFrame .. => "encoding frame"

end LogEvent

/-- A value and the events that were logged while it was computed, oldest first. -/
structure Logged (α : Type) where
  value : α
  events : List LogEvent

/-! ## Detection -/

namespace Isa

/-- A machine and what is remembered of its detection: nothing before the first request. -/
structure Detection where
  platform : Platform
  known : Option Isa
  deriving DecidableEq

namespace Detection

variable {detection : Detection}

def initialOn (platform : Platform) : Detection := ⟨platform, none⟩

def initial : Detection := initialOn .host

def request (detection : Detection) : Logged (Isa × Detection) :=
  match detection.known with
  | some isa => ⟨(isa, detection), []⟩
  | none =>
      let isa := probe detection.platform
      ⟨(isa, { detection with known := some isa }), [.isaSelected isa]⟩

def eventsOf : (requests : Nat) → Detection → List LogEvent
  | 0, _ => []
  | requests + 1, detection =>
      let answer := detection.request
      answer.events ++ eventsOf requests answer.value.2

def Sound (detection : Detection) : Prop :=
  ∀ isa, detection.known = some isa → isa = probe detection.platform

theorem sound_initialOn (platform : Platform) : (initialOn platform).Sound := by
  intro isa known
  cases known

/-- All requests have the same answer, that of the machine. -/
theorem Sound.request (sound : detection.Sound) :
    detection.request.value.1 = probe detection.platform ∧
      detection.request.value.2.platform = detection.platform ∧
        detection.request.value.2.Sound := by
  obtain ⟨platform, known⟩ := detection
  cases known with
  | none =>
      refine ⟨rfl, rfl, ?_⟩
      rintro isa ⟨⟩
      rfl
  | some isa => exact ⟨sound isa rfl, rfl, sound⟩

/-- Only the first request logs an event. -/
theorem eventsOf_initialOn (platform : Platform) (requests : Nat) :
    eventsOf (requests + 1) (initialOn platform) = [.isaSelected (probe platform)] := by
  have silent (count : Nat) (isa : Isa) : eventsOf count ⟨platform, some isa⟩ = [] := by
    induction count with
    | zero => rfl
    | succ count ih => exact ih
  exact congrArg (List.cons _) (silent requests (probe platform))

end Detection

end Isa

end PolarCoding
