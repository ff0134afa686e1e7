import Reckoner.Proofs.JsonText
import Reckoner.Stored.Expr

namespace Reckoner

namespace Json

mutual

/-- The most brackets that stand open at once. -/
def depth : Json → Nat
  | null | boolean _ | number _ | string _ => 0
  | array items => depthItems items + 1
  | object members => depthMembers members + 1

def depthItems : List Json → Nat
  | [] => 0
  | j :: js => max j.depth (depthItems js)

def depthMembers : List (Option String × Json) → Nat
  | [] => 0
  | (_, j) :: ms => max j.depth (depthMembers ms)

end

@[simp] theorem depth_text (s : String) : (text s).depth = 0 := rfl

@[simp] theorem depth_whole (i : Int) : (whole i).depth = 0 := rfl

@[simp] theorem depth_boolean (b : Bool) : (boolean b).depth = 0 := rfl

theorem depth_record (members : List (String × Json)) :
    (record members).depth = (members.map fun m => m.2.depth).foldr max 0 + 1 := by
  rw [record, depth]
  congr 1
  induction members with
  | nil => rfl
  | cons m ms ih => simp [depthMembers, ih]

@[simp] theorem variant?_record (name : String) (content : Json) :
    (record [(name, content)]).variant? = some (name, some content) := rfl

@[simp] theorem variant?_text (name : String) : (text name).variant? = some (name, none) := rfl

@[simp] theorem text?_text (s : String) : (text s).text? = some s := rfl

def present (fields : List (String × Option Json)) : List (String × Json) :=
  fields.filterMap fun f => f.2.map (f.1, ·)

/-- An object has these fields, but for the missing ones, in any order and among any others. -/
def Holds (fields : List (String × Option Json)) (ms : List (String × Json)) : Prop :=
  (ms.filter (·.1 ∈ fields.map Prod.fst)).Perm (present fields)

section

variable {fields : List (String × Option Json)} {ms : List (String × Json)}

theorem fst_mem_of_mem_present {m : String × Json} (hm : m ∈ present fields) :
    m.1 ∈ fields.map Prod.fst := by
  obtain ⟨f, hf, hj⟩ := List.mem_filterMap.1 hm
  obtain ⟨j, -, rfl⟩ := Option.map_eq_some_iff.1 hj
  exact List.mem_map_of_mem hf

theorem holds_present (fields : List (String × Option Json)) : Holds fields (present fields) := by
  rw [Holds, List.filter_eq_self.2 fun m hm => decide_eq_true (fst_mem_of_mem_present hm)]

theorem filter_present_of_nodup (hn : (fields.map Prod.fst).Nodup) {f : String × Option Json}
    (hf : f ∈ fields) : (present fields).filter (·.1 == f.1) = (f.2.map (f.1, ·)).toList := by
  induction fields with
  | nil => cases hf
  | cons g fields ih =>
      obtain ⟨hg, hn⟩ := List.nodup_cons.1 hn
      rcases List.mem_cons.1 hf with rfl | hf
      · have hnil : (present fields).filter (·.1 == f.1) = [] :=
          List.filter_eq_nil_iff.2 fun m hm he => hg (beq_iff_eq.1 he ▸ fst_mem_of_mem_present hm)
        cases hv : f.2 with
        | none => simpa [present, hv] using hnil
        | some j => simpa [present, hv] using hnil
      · have hne : g.1 ≠ f.1 := fun he => hg (he ▸ List.mem_map_of_mem hf)
        rw [← ih hn hf]
        cases hv : g.2 <;> simp [present, hv, hne]

theorem filter_of_holds (h : Holds fields ms) (hn : (fields.map Prod.fst).Nodup)
    {f : String × Option Json} (hf : f ∈ fields) :
    (ms.map fun m => (some m.1, m.2)).filter (·.1 == some f.1) =
      (f.2.map (some f.1, ·)).toList := by
  have hp := List.Perm.filter (·.1 == f.1) h
  have hs : (ms.filter (·.1 ∈ fields.map Prod.fst)).filter (·.1 == f.1) =
      ms.filter (·.1 == f.1) := by
    rw [List.filter_filter]
    refine List.filter_congr fun m _ => ?_
    by_cases he : m.1 = f.1
    · simp [he, List.mem_map_of_mem (f := Prod.fst) hf]
    · simp [he]
  rw [hs, filter_present_of_nodup hn hf] at hp
  have hm : (ms.map fun m => (some m.1, m.2)).filter (·.1 == some f.1) =
      (ms.filter (·.1 == f.1)).map fun m => (some m.1, m.2) := List.filter_map
  rw [hm]
  cases hv : f.2 with
  | none =>
      rw [hv] at hp
      rw [List.perm_nil.1 hp]
      rfl
  | some j =>
      rw [hv] at hp
      rw [List.perm_singleton.1 hp]
      rfl

theorem mapM_fst {read : String → Option (Option Json)} (h : ∀ f ∈ fields, read f.1 = some f.2) :
    (fields.map Prod.fst).mapM read = some (fields.map Prod.snd) := by
  induction fields with
  | nil => rfl
  | cons f fields ih =>
      rw [List.map_cons, List.mapM_cons, h f (List.mem_cons_self ..),
        ih fun f hf => h f (List.mem_cons_of_mem _ hf)]
      rfl

theorem fields?_of_holds (h : Holds fields ms) (hn : (fields.map Prod.fst).Nodup) :
    fields? (fields.map Prod.fst) (record ms) = some (fields.map Prod.snd) := by
  have hk : (ms.map fun m => (some m.1, m.2)).any (·.1.isNone) = false := by simp
  rw [record, fields?, members?, hk]
  refine mapM_fst fun f hf => ?_
  rw [filter_of_holds h hn hf]
  cases f.2 <;> rfl

theorem fields?_record (h : (ms.map Prod.fst).Nodup) :
    fields? (ms.map Prod.fst) (record ms) = some (ms.map fun m => some m.2) := by
  have hm : (ms.map fun m => (m.1, some m.2)).map Prod.fst = ms.map Prod.fst := by
    simp [Function.comp_def]
  have hp : present (ms.map fun m => (m.1, some m.2)) = ms := by
    rw [present, List.filterMap_map]
    exact List.filterMap_some
  have hh := holds_present (ms.map fun m => (m.1, some m.2))
  rw [hp] at hh
  rw [← hm, fields?_of_holds hh (hm ▸ h), List.map_map]
  rfl

end

theorem whole?_whole (i : Int) : (whole i).whole? = some i := by
  have hm : Nat.ofDigitChars 10 (Nat.toDigits 10 i.natAbs) 0 = i.natAbs :=
    Nat.ofDigitChars_ten_toDigits
  by_cases hi : i < 0
  · have hz : i.natAbs ≠ 0 := by omega
    have hv : -(i.natAbs : Int) = i := by omega
    simp only [whole?, whole, Numeral.whole?, hm, hi, decide_true, if_true, hz, if_false, hv]
  · have hv : (i.natAbs : Int) = i := by omega
    simp only [whole?, whole, Numeral.whole?, hm, hi, decide_false, Bool.false_eq_true, if_false,
      hv]

end Json

namespace Value

def restored : Value → Value
  | integer n => integer n
  | decimal d => decimal d.restored
  | string s => string s
  | boolean b => boolean b

theorem plain_toJson (v : Value) : v.toJson.Plain := by
  cases v with
  | integer n => exact .record (by simpa using Json.Plain.whole n.val)
  | decimal d => exact .record (by simpa using Json.Plain.text d.text)
  | string s => exact .record (by simpa using Json.Plain.text s)
  | boolean b => exact .record (by simpa using Json.Plain.boolean b)

theorem depth_toJson (v : Value) : v.toJson.depth = 1 := by
  cases v <;> simp [toJson, Json.depth_record]

theorem ofJson?_toJson (room : Nat) (v : Value) :
    ofJson? room v.toJson = if v.toJson.depth ≤ room then some v.restored else none := by
  rw [depth_toJson]
  by_cases hr : room = 0
  · simp [ofJson?, hr]
  · rw [ofJson?, if_neg hr, if_pos (Nat.one_le_iff_ne_zero.2 hr)]
    cases v with
    | integer n =>
        simp [toJson, Json.record, Json.variant?, Json.whole?_whole, Signed.ofInt?_val, restored]
    | decimal d =>
        simp [toJson, Json.record, Json.variant?, Json.text, Decimal.ofJson?, Decimal.ofText?_text,
          restored]
    | string s => rfl
    | boolean b => rfl

end Value

theorem BinaryOperator.ofName?_name (op : BinaryOperator) : ofName? op.name = some op := by
  rcases op with (_ | _ | _ | _) | (_ | _) <;> decide

theorem UnaryOperator.ofName?_name (op : UnaryOperator) : ofName? op.name = some op := by
  cases op
  decide

namespace Expr

def restored : Expr → Expr
  | literal v => literal v.restored
  | var name => var name
  | grouping inner => grouping inner.restored
  | binary op left right => binary op left.restored right.restored
  | unary op operand => unary op operand.restored

/-- The brackets of the stored form that stand open at once. -/
def brackets : Expr → Nat
  | literal _ => 2
  | var _ => 1
  | grouping inner => inner.brackets + 1
  | binary _ left right => max left.brackets right.brackets + 2
  | unary _ operand => operand.brackets + 2

theorem depth_toJson (e : Expr) : e.toJson.depth = e.brackets := by
  induction e with
  | literal v => simp [toJson, Json.depth_record, Value.depth_toJson, brackets]
  | var name => simp [toJson, Json.depth_record, brackets]
  | grouping inner ih => simp [toJson, Json.depth_record, ih, brackets]
  | binary op left right ihl ihr => simp [toJson, Json.depth_record, ihl, ihr, brackets]
  | unary op operand ih => simp [toJson, Json.depth_record, ih, brackets]

theorem plain_toJson (e : Expr) : e.toJson.Plain := by
  induction e with
  | literal v => exact .record (by simpa using v.plain_toJson)
  | var name => exact .record (by simpa using Json.Plain.text name)
  | grouping inner ih => exact .record (by simpa using ih)
  | binary op left right ihl ihr =>
      exact .record (by simpa using .record (by simpa using ⟨.text op.name, ihl, ihr⟩))
  | unary op operand ih =>
      exact .record (by simpa using .record (by simpa using ⟨.text op.name, ih⟩))

/-- A tree is read back where there is room for its brackets, and nothing is elsewhere. -/
theorem ofJson?_toJson (room : Nat) (e : Expr) :
    ofJson? room e.toJson = if e.brackets ≤ room then some e.restored else none := by
  induction e generalizing room with
  | literal v =>
      have hv := v.ofJson?_toJson
      simp only [v.depth_toJson] at hv
      cases room <;> simp [toJson, ofJson?, hv, brackets, restored]
  | var name => cases room <;> simp [toJson, ofJson?, brackets, restored]
  | grouping inner ih => cases room <;> simp [toJson, ofJson?, ih, brackets, restored]
  | binary op left right ihl ihr =>
      have hf : (Json.record [("operator", .text op.name), ("left", left.toJson),
          ("right", right.toJson)]).fields? ["operator", "left", "right"] =
            some [some (.text op.name), some left.toJson, some right.toJson] :=
        Json.fields?_record (by decide : ["operator", "left", "right"].Nodup)
      rcases room with _ | _ | room
      · rfl
      · simp [toJson, ofJson?, brackets]
      · have hm : (binary op left right).brackets ≤ room + 1 + 1 ↔
            left.brackets ≤ room ∧ right.brackets ≤ room := by
          rw [brackets]
          omega
        simp only [hm]
        by_cases hl : left.brackets ≤ room <;> by_cases hr : right.brackets ≤ room <;>
          simp [toJson, ofJson?, hf, ihl, ihr, hl, hr, restored, Json.bareName?, op.ofName?_name]
  | unary op operand ih =>
      have hf : (Json.record [("operator", .text op.name), ("operand", operand.toJson)]).fields?
          ["operator", "operand"] = some [some (.text op.name), some operand.toJson] :=
        Json.fields?_record (by decide : ["operator", "operand"].Nodup)
      rcases room with _ | _ | room
      · rfl
      · simp [toJson, ofJson?, brackets]
      · by_cases ho : operand.brackets ≤ room <;>
          simp [toJson, ofJson?, hf, ih, ho, brackets, restored, Json.bareName?, op.ofName?_name]

end Expr

namespace Statement

def restored : Statement → Statement
  | expression e => expression e.restored
  | assignment name e => assignment name e.restored

def brackets : Statement → Nat
  | expression e => e.brackets + 1
  | assignment _ e => e.brackets + 2

theorem depth_toJson (r : Statement) : r.toJson.depth = r.brackets := by
  cases r <;> simp [toJson, Json.depth_record, Expr.depth_toJson, brackets]

theorem plain_toJson (r : Statement) : r.toJson.Plain := by
  cases r with
  | expression e => exact .record (by simpa using e.plain_toJson)
  | assignment name e =>
      exact .record (by simpa using .record (by simpa using ⟨.text name, e.plain_toJson⟩))

theorem ofJson?_toJson (room : Nat) (r : Statement) :
    ofJson? room r.toJson = if r.brackets ≤ room then some r.restored else none := by
  cases r with
  | expression e => cases room <;> simp [toJson, ofJson?, e.ofJson?_toJson, brackets, restored]
  | assignment name e =>
      have hf : (Json.record [("variable", .text name), ("expression", e.toJson)]).fields?
          ["variable", "expression"] = some [some (.text name), some e.toJson] :=
        Json.fields?_record (by decide : ["variable", "expression"].Nodup)
      rcases room with _ | _ | room
      · rfl
      · simp [toJson, ofJson?, brackets]
      · by_cases he : e.brackets ≤ room <;>
          simp [toJson, ofJson?, hf, e.ofJson?_toJson, he, brackets, restored]

/-- A stored line comes back just when its brackets keep to those that may stand open at once. -/
theorem ofStored?_compact (r : Statement) :
    ofStored? r.toJson.compact = if r.brackets ≤ Json.maxRoom then some r.restored else none := by
  rw [ofStored?, Json.ofText?_compact r.plain_toJson]
  exact r.ofJson?_toJson Json.maxRoom

end Statement

end Reckoner
