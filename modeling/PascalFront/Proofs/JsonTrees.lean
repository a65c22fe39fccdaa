-- The JSON form of a tree loses nothing. The attributes of a node and its
-- children are the members of one object, those that are missing are left out,
-- and constants are told apart by their spelling alone; yet a tree is read back
-- from its text, key by key.
import PascalFront.TreeJson
import PascalFront.Proofs.JsonReadBack
import PascalFront.Proofs.TreeShape

namespace PascalFront

/-! ## Reading a tree by its keys -/

def NodeKind.ofName? (name : String) : Option NodeKind := NodeKind.all.find? (·.name == name)

/-- A constant, by the spelling of numbers and the quotes of strings. -/
def Value.ofJson? : JsonValue → Option Value
  | .integer n => some (.integer n)
  | .spelled text => (Binary64.read? text).map .real
  | .string s => some (.string s)
  | _ => none

/-- What the members of an object say of a node. -/
structure NodeParts where
  kind : Option NodeKind := none
  line : Option Nat := none
  id : Option SymbolId := none
  value : Option Value := none
  children : List Node := []

namespace NodeParts

/-- A node has a kind; all the rest may be missing. -/
def node? (parts : NodeParts) : Option Node :=
  parts.kind.map fun kind => ⟨kind, parts.line, parts.id, parts.value, parts.children⟩

/-- A number that counts something. -/
def count? : JsonValue → Option Nat
  | .integer n => if 0 ≤ n then some n.toNat else none
  | _ => none

/-- Takes a member other than the children; there are no other keys. -/
def put? (parts : NodeParts) (key : String) (v : JsonValue) : Option NodeParts :=
  if key = "kind" then
    match v with
    | .string name => (NodeKind.ofName? name).map fun kind => { parts with kind := some kind }
    | _ => none
  else if key = "line" then (count? v).map fun line => { parts with line := some line }
  else if key = "id" then (count? v).map fun id => { parts with id := some ⟨id⟩ }
  else if key = "value" then (Value.ofJson? v).map fun value => { parts with value := some value }
  else none

/-- Takes an array, which only the children are. -/
def putAll? (parts : NodeParts) (key : String) (children? : Option (List Node)) :
    Option NodeParts :=
  if key = "children" then children?.map fun children => { parts with children } else none

end NodeParts

mutual
/-- The tree that an object says. -/
def Node.ofJson? : JsonValue → Option Node
  | .object members => (NodeParts.ofMembers? members).bind NodeParts.node?
  | _ => none

def NodeParts.ofMembers? : List (String × JsonValue) → Option NodeParts
  | [] => some {}
  | (key, .array items) :: members =>
    (NodeParts.ofMembers? members).bind fun parts => parts.putAll? key (Node.ofJsonAll? items)
  | (key, v) :: members => (NodeParts.ofMembers? members).bind fun parts => parts.put? key v

def Node.ofJsonAll? : List JsonValue → Option (List Node)
  | [] => some []
  | v :: vs =>
    match Node.ofJson? v, Node.ofJsonAll? vs with
    | some n, some ns => some (n :: ns)
    | _, _ => none
end

/-- The tree that a JSON text says. -/
def Node.ofJsonText? (text : String) : Option Node := (Json.read? text).bind Node.ofJson?

/-! ## What is written is proper -/

/-- A node whose constant is no infinity and no NaN. -/
def Node.FiniteValue (n : Node) : Prop := ∀ x, n.value = some (.real x) → x.isFinite = true

namespace Binary64

/-- A finite double in JSON is a numeral that shows that it is real. -/
theorem proper_jsonText {x : Binary64} (hx : x.isFinite = true) :
    Json.Proper (.spelled x.jsonText) := by
  obtain ⟨n, hn, htext, -, hreal⟩ := textIn_spells .json x
  refine .spelled x.isNegative hn (hreal rfl) ?_
  simp [jsonText, hx, htext]

theorem read?_jsonText {x : Binary64} (hx : x.isFinite = true) : read? x.jsonText = some x := by
  rw [jsonText, if_pos hx]
  exact read?_textIn .json hx

end Binary64

theorem Node.jsonAll_eq (ns : List Node) : Node.jsonAll ns = ns.map Node.json := by
  induction ns with
  | nil => rw [Node.jsonAll, List.map_nil]
  | cons n ns ih => rw [Node.jsonAll, List.map_cons, ih]

theorem Value.proper_json {v : Value} (h : ∀ x, v = .real x → x.isFinite = true) :
    Json.Proper v.json := by
  cases v with
  | integer k => exact .integer k
  | real x => exact Binary64.proper_jsonText (h x rfl)
  | string s => exact .string s

theorem Node.proper_json {n : Node} (h : n.Every Node.FiniteValue) : Json.Proper n.json := by
  induction h with
  | @intro n hvalue _ ih =>
    obtain ⟨kind, line, id, value, children⟩ := n
    have hchildren : Json.Proper (.array (Node.jsonAll children)) := by
      rw [Node.jsonAll_eq]
      refine .array fun v hv => ?_
      obtain ⟨c, hc, rfl⟩ := List.mem_map.mp hv
      exact ih c hc
    rw [Node.json]
    refine .object fun m hm => ?_
    simp only [Node.jsonMembers, List.mem_cons, List.mem_append, Option.mem_toList,
      Option.map_eq_some_iff] at hm
    rcases hm with rfl | ((⟨l, -, rfl⟩ | ⟨i, -, rfl⟩) | ⟨v, hv, rfl⟩) | hm
    · exact .string _
    · exact .integer _
    · exact .integer _
    · exact Value.proper_json fun x hx => hvalue x (by rw [hv, hx])
    · split at hm
      · cases hm
      · obtain rfl := List.mem_singleton.mp hm
        exact hchildren

/-! ## What is written reads back -/

theorem NodeKind.ofName?_name (kind : NodeKind) : NodeKind.ofName? kind.name = some kind := by
  cases kind <;> decide

theorem Value.ofJson?_json {v : Value} (h : ∀ x, v = .real x → x.isFinite = true) :
    Value.ofJson? v.json = some v := by
  cases v with
  | integer k => rfl
  | real x =>
    rw [Value.json, Value.ofJson?, Binary64.read?_jsonText (h x rfl)]
    rfl
  | string s => rfl

theorem NodeParts.count?_natCast (k : Nat) : NodeParts.count? (.integer k) = some k := by
  simp [NodeParts.count?]

theorem Node.ofJsonAll?_json {ns : List Node} (h : ∀ n ∈ ns, Node.ofJson? n.json = some n) :
    Node.ofJsonAll? (Node.jsonAll ns) = some ns := by
  induction ns with
  | nil => rw [Node.jsonAll, Node.ofJsonAll?]
  | cons n ns ih =>
    have hn := h n (by simp)
    have hns := ih fun m hm => h m (by simp [hm])
    simp [Node.jsonAll, Node.ofJsonAll?, hn, hns]

/-- The object of a node says the node. -/
theorem Node.ofJson?_json {n : Node} (h : n.Every Node.FiniteValue) :
    Node.ofJson? n.json = some n := by
  induction h with
  | @intro n hvalue _ ih =>
    obtain ⟨kind, line, id, value, children⟩ := n
    have hkind := NodeKind.ofName?_name kind
    have hall := Node.ofJsonAll?_json ih
    have hconstant : ∀ v, value = some v →
        ∀ members, NodeParts.ofMembers? (("value", v.json) :: members) =
        (NodeParts.ofMembers? members).map fun parts => { parts with value := some v } := by
      intro v hv members
      have hread : Value.ofJson? v.json = some v := Value.ofJson?_json fun x hx =>
          hvalue x (by rw [hv, hx])
      cases v <;> cases hrest : NodeParts.ofMembers? members <;>
        simp_all [Value.json, NodeParts.ofMembers?, NodeParts.put?]
    have hparts : NodeParts.ofMembers?
        (Node.jsonMembers kind line id value (Node.jsonAll children)) =
        some ⟨some kind, line, id, value, children⟩ := by
      -- every attribute is there or not, and so is the row of children
      cases line <;> cases id <;> cases value <;> cases children <;>
        simp_all [Node.jsonMembers, Node.jsonAll, NodeParts.ofMembers?, NodeParts.put?,
          NodeParts.putAll?,
          NodeParts.count?_natCast]
    rw [Node.json, Node.ofJson?, hparts]
    rfl

/-! ## The whole text -/

/-- The JSON text of a tree is well formed and reads back as that tree, so no other tree has it: a
tree of any shape, with any of the attributes, any integers and strings and any reals that are
finite. -/
theorem json_form_loses_nothing {n : Node} (h : n.Every Node.FiniteValue) :
    Json.WellFormed n.jsonText ∧ Node.ofJsonText? n.jsonText = some n ∧
      ∀ m : Node, m.Every Node.FiniteValue → m.jsonText = n.jsonText → m = n := by
  have hread : ∀ {m : Node}, m.Every Node.FiniteValue → Json.read? m.jsonText = some m.json :=
      fun hm =>
    Json.read?_written Json.spacing_compact (Node.proper_json hm)
  have htree : ∀ {m : Node}, m.Every Node.FiniteValue → Node.ofJsonText? m.jsonText = some m := by
    intro m hm
    rw [Node.ofJsonText?, hread hm]
    exact Node.ofJson?_json hm
  refine ⟨Json.wellFormed_of_read? (hread h), htree h, fun m hm htext => ?_⟩
  apply Option.some.inj
  rw [← htree hm, ← htree h, htext]

/-- A tree with all three attributes at one node and each kind of constant. -/
def Node.sample : Node :=
  ⟨.call, some 3, some ⟨12⟩, some (.string "it's \"so\" \\ \u0007\n\x7bkind\x7d é 😀"),
    [.real ⟨0xBFF199999999999A⟩, .real ⟨0x7FEFFFFFFFFFFFFF⟩, .integer (-9223372036854775808),
      .string "1.5",
      ⟨.loop, none, some ⟨0⟩, none, [.string "", .statement .noOp 7 []]⟩]⟩

theorem sample_reads_back : Node.sample.Every Node.FiniteValue ∧
    Node.ofJsonText? Node.sample.jsonText = some Node.sample := by
  have hsample : Node.sample.Every Node.FiniteValue := by
    simp only [Node.sample, Node.real, Node.integer, Node.string, Node.statement, Node.every_mk,
      Node.FiniteValue,
      List.forall_mem_cons, List.not_mem_nil, false_implies, implies_true, and_true,
        Option.some.injEq,
      Value.real.injEq, forall_eq', reduceCtorEq, true_and]
    decide
  exact ⟨hsample, (json_form_loses_nothing hsample).2.1⟩

end PascalFront
