import Reckoner.Evaluation
import Reckoner.Expr.Parse

namespace Reckoner

structure Settings where
  shortCircuit : Bool := false
  maxDepth : UInt64 := 256
  maxChainLength : UInt64 := 4096
  deriving DecidableEq

inductive SettingsError
  | unreadable
  | unavailable
  | zeroDepth
  | zeroChainLength
  deriving DecidableEq

def SettingsError.message : SettingsError → String
  | unreadable => "配置解析失败"
  | unavailable => "配置 IO 错误"
  | zeroDepth => "配置验证失败: max_depth 必须大于 0"
  | zeroChainLength => "配置验证失败: max_chain_length 必须大于 0"

namespace Settings

def limits (s : Settings) : Limits := ⟨s.maxDepth.toNat, s.maxChainLength.toNat⟩

def policy (s : Settings) : Policy := ⟨s.shortCircuit, s.maxDepth.toNat⟩

/-- Some depth and some length of chains must be left. -/
def Usable (s : Settings) : Prop := s.maxDepth ≠ 0 ∧ s.maxChainLength ≠ 0

instance (s : Settings) : Decidable s.Usable := inferInstanceAs (Decidable (_ ∧ _))

theorem Usable.maxDepth_pos {s : Settings} (h : s.Usable) : 0 < s.maxDepth.toNat :=
  Nat.pos_of_ne_zero fun hz => h.1 (UInt64.toNat_inj.1 hz)

theorem Usable.maxChainLength_pos {s : Settings} (h : s.Usable) : 0 < s.maxChainLength.toNat :=
  Nat.pos_of_ne_zero fun hz => h.2 (UInt64.toNat_inj.1 hz)

def check (s : Settings) : Except SettingsError Unit :=
  if s.maxDepth = 0 then .error .zeroDepth
  else if s.maxChainLength = 0 then .error .zeroChainLength
  else .ok ()

theorem check_eq_ok_iff (s : Settings) : s.check = .ok () ↔ s.Usable := by
  unfold check Usable
  split
  · simp [*]
  split <;> simp [*]

end Settings

end Reckoner
