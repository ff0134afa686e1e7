import Reckoner.Command
import Reckoner.Proofs.Reach
import Reckoner.Proofs.StoredForm

namespace Reckoner

theorem Json.word?_whole (n : UInt64) : (whole n.toNat).word? = some n := by
  have hn : (0 : Int) ≤ n.toNat ∧ (n.toNat : Int).toNat < UInt64.size :=
    ⟨Int.natCast_nonneg _, n.toNat_lt⟩
  rw [word?, whole?_whole]
  change (if _ then some (UInt64.ofNat (n.toNat : Int).toNat) else none) = some n
  rw [if_pos hn, Int.toNat_natCast, UInt64.ofNat_toNat]

namespace Settings

/-- Some of the settings, for which others stand in where they are missing. -/
structure Layer where
  shortCircuit : Option Bool := none
  maxDepth : Option UInt64 := none
  maxChainLength : Option UInt64 := none

def Layer.onto (l : Layer) (s : Settings) : Settings :=
  ⟨l.shortCircuit.getD s.shortCircuit, l.maxDepth.getD s.maxDepth,
    l.maxChainLength.getD s.maxChainLength⟩

def Layer.fields (l : Layer) : List (String × Option Json) :=
  [("short_circuit_logic", l.shortCircuit.map .boolean),
    ("max_depth", l.maxDepth.map fun n => .whole n.toNat),
    ("max_chain_length", l.maxChainLength.map fun n => .whole n.toNat)]

theorem Layer.nodup_fields (l : Layer) : (l.fields.map Prod.fst).Nodup :=
  (by decide : ["short_circuit_logic", "max_depth", "max_chain_length"].Nodup)

def whole (s : Settings) : Layer := ⟨some s.shortCircuit, some s.maxDepth, some s.maxChainLength⟩

theorem plain_toJson (s : Settings) : s.toJson.Plain :=
  .record (by simpa using
    ⟨.boolean s.shortCircuit, .whole s.maxDepth.toNat, .whole s.maxChainLength.toNat⟩)

theorem field?_map {α : Type} {read : Json → Option α} {write : α → Json}
    (h : ∀ a, read (write a) = some a) (fallback : α) (given : Option α) :
    field? read fallback (given.map write) = some (given.getD fallback) := by
  cases given with
  | none => rfl
  | some a => exact h a

theorem ofJson?_of_holds {ms : List (String × Json)} {l : Layer} (h : Json.Holds l.fields ms) :
    ofJson? (.record ms) = some (l.onto {}) := by
  have hf : (Json.record ms).fields? ["short_circuit_logic", "max_depth", "max_chain_length"] =
      some (l.fields.map Prod.snd) := Json.fields?_of_holds h l.nodup_fields
  have hb (b : Bool) : (Json.boolean b).boolean? = some b := rfl
  simp [ofJson?, hf, Layer.fields, field?_map hb, field?_map Json.word?_whole, Layer.onto]

inductive Checked (s : Settings) : Except SettingsError Settings → Prop
  | usable (h : s.Usable) : Checked s (.ok s)
  | zeroDepth (h : s.maxDepth = 0) : Checked s (.error .zeroDepth)
  | zeroChainLength (hd : s.maxDepth ≠ 0) (h : s.maxChainLength = 0) :
      Checked s (.error .zeroChainLength)

theorem checked_ofText {text : String} {ms : List (String × Json)} {l : Layer}
    (ht : Json.ofText? text = some (.record ms)) (h : Json.Holds l.fields ms) :
    (l.onto {}).Checked (ofText text) := by
  have hs : Json.ofText? text >>= ofJson? = some (l.onto {}) := by
    rw [ht]
    exact ofJson?_of_holds h
  rw [ofText, hs]
  change Checked _ (do (l.onto {}).check; .ok (l.onto {}))
  generalize l.onto {} = s
  rw [check]
  by_cases hd : s.maxDepth = 0
  · rw [if_pos hd]
    exact .zeroDepth hd
  rw [if_neg hd]
  by_cases hc : s.maxChainLength = 0
  · rw [if_pos hc]
    exact .zeroChainLength hd hc
  · rw [if_neg hc]
    exact .usable ⟨hd, hc⟩

/-- The settings that a file leads to. Without one these are the standard. -/
inductive Found : Option Source → Settings → Prop
  | unnamed : Found none {}
  | missing : Found (some .missing) {}
  | read {bs : ByteArray} {text : String} {s : Settings} (hb : String.fromUTF8? bs = some text)
      (h : ofText text = .ok s) : Found (some (.bytes bs)) s

theorem load_eq_ok_iff {source : Source} {s : Settings} :
    load source = .ok s ↔ Found (some source) s := by
  constructor
  · intro h
    cases source with
    | missing =>
        cases h
        exact .missing
    | unavailable => cases h
    | bytes bs =>
        rw [load] at h
        cases hb : String.fromUTF8? bs with
        | none => rw [hb] at h; cases h
        | some text =>
            rw [hb] at h
            exact .read hb h
  · intro h
    cases h with
    | missing => rfl
    | read hb h =>
        rw [load, hb]
        exact h

end Settings

open Settings

theorem Calculator.ofSettings_of_usable {s : Settings} (h : s.Usable) :
    ofSettings s = .ok ⟨s, h⟩ := by
  unfold ofSettings
  split
  · rfl
  · next e he => cases ((check_eq_ok_iff s).2 h).symm.trans he

namespace Invocation

def base (i : Invocation) : Except CommandError Settings :=
  match i.file with
  | some (path, source) => (load source).mapError (.settingsFile path)
  | none => .ok {}

theorem base_eq_ok_iff {i : Invocation} {s : Settings} :
    i.base = .ok s ↔ Found (i.file.map Prod.snd) s := by
  rw [base]
  cases i.file with
  | none =>
      constructor
      · intro h
        cases h
        exact .unnamed
      · rintro ⟨⟩
        rfl
  | some file => exact mapError_eq_ok_iff.trans load_eq_ok_iff

def layer (i : Invocation) : Layer where
  shortCircuit := if i.shortCircuit then some true else none
  maxDepth := i.maxDepth

theorem settings_eq (i : Invocation) : i.settings = i.base >>= fun s => do
    (i.layer.onto s).check.mapError .settings
    return i.layer.onto s := by
  have ho (s : Settings) : i.layer.onto s =
      { s with
        shortCircuit := i.shortCircuit || s.shortCircuit
        maxDepth := i.maxDepth.getD s.maxDepth } := by
    rw [Layer.onto, layer]
    cases i.shortCircuit <;> rfl
  simp only [ho]
  rw [settings, base]
  cases i.file <;> rfl

theorem settings_eq_ok_iff {i : Invocation} {s : Settings} : i.settings = .ok s ↔
    ∃ base, Found (i.file.map Prod.snd) base ∧ s = i.layer.onto base ∧ s.Usable := by
  rw [settings_eq]
  constructor
  · intro h
    obtain ⟨base, hb, h⟩ := exists_of_bind_eq_ok h
    obtain ⟨⟨⟩, hc, h⟩ := exists_of_bind_eq_ok h
    cases h
    exact ⟨base, base_eq_ok_iff.1 hb, rfl, (check_eq_ok_iff _).1 (mapError_eq_ok_iff.1 hc)⟩
  · rintro ⟨base, hb, rfl, hu⟩
    rw [base_eq_ok_iff.2 hb]
    change ((i.layer.onto base).check.mapError _ >>= _) = _
    rw [(check_eq_ok_iff _).2 hu]
    rfl

end Invocation

/-- Settings come back from their texts, and what is read of them goes over the standard. What is
accepted of a file and the flags over it is usable and is the settings of a calculator. -/
theorem settings_kept :
    (∀ s : Settings, s.Checked (ofText s.toJson.compact)) ∧
      (∀ (text : String) (ms : List (String × Json)) (l : Layer),
        Json.ofText? text = some (.record ms) → Json.Holds l.fields ms →
          (l.onto {}).Checked (ofText text)) ∧
      ∀ (i : Invocation) (s : Settings),
        (i.settings = .ok s ↔
          ∃ base, Found (i.file.map Prod.snd) base ∧ s = i.layer.onto base ∧ s.Usable) ∧
        (i.settings = .ok s → ∃ h, Calculator.ofSettings s = .ok ⟨s, h⟩) := by
  refine ⟨fun s => ?_, fun text ms l => checked_ofText, fun i s =>
    ⟨Invocation.settings_eq_ok_iff, ?_⟩⟩
  · have ht : Json.ofText? s.toJson.compact = some (.record (Json.present s.whole.fields)) :=
      Json.ofText?_compact s.plain_toJson
    exact checked_ofText ht (Json.holds_present s.whole.fields)
  · intro h
    obtain ⟨base, -, -, hu⟩ := Invocation.settings_eq_ok_iff.1 h
    exact ⟨hu, Calculator.ofSettings_of_usable hu⟩

theorem settings_of_mixed_file :
    (⟨true, 12, 4096⟩ : Settings).Checked
        (ofText "\x7b\"max_depth\": 12, \"note\": [1.5], \"short_circuit_logic\": true\x7d") ∧
      Invocation.settings ⟨.repl,
          some ("a.json", .bytes "\x7b\"max_depth\": 9, \"max_chain_length\": 7\x7d".toUTF8),
          true, some 3⟩ = .ok ⟨true, 3, 7⟩ := by
  refine ⟨settings_kept.2.1 _ [("max_depth", .whole 12),
    ("note", .array [.number ⟨false, ['1'], some ['5'], none⟩]),
    ("short_circuit_logic", .boolean true)] ⟨some true, some 12, none⟩ rfl (.swap ..), ?_⟩
  exact (settings_kept.2.2 _ _).1.2
    ⟨⟨false, 9, 7⟩, .read (dif_pos (String.isValidUTF8 _)) rfl, rfl, by decide⟩

end Reckoner
