import Scaffold.Proofs.Json.Scan
import Scaffold.Proofs.Tree.Grammar

/-!
# Documents

A document is looked at for blanks before it is read as JSON.  A blank document
holds no token, and a document that is the word `null` between blanks is read
as a null if it is read at all, so `Node.parse` decodes the value of every
document that can be read (`Node.parse_eq_of_read`).  The grammar of node objects then
decides which of these documents are syntax trees (`Node.parse_succeeds`).
-/

namespace Scaffold

open Json

theorem trim_ne_nil_of_read {document : String} {j : Json} (h : read? document = some j) :
    Text.trim Text.isBlank document.toList ≠ [] := by
  intro hempty
  obtain ⟨before, after, hbefore, hafter, hcs⟩ := Text.exists_trim Text.isBlank document.toList
  obtain ⟨tokens, hscan, -, hvalue⟩ := read?_eq_some.1 h
  rw [hempty, List.append_nil] at hcs
  rw [Token.scan?, hcs] at hscan
  obtain ⟨fuel, hscan⟩ := Token.scanWithin_blanks hbefore hscan
  obtain rfl := Token.scanWithin_all_blank hafter hscan
  cases hvalue

theorem eq_null_of_read {document : String} {j : Json} (h : read? document = some j)
    (hnull : Text.trim Text.isBlank document.toList = "null".toList) : j = .null := by
  obtain ⟨before, after, hbefore, hafter, hcs⟩ := Text.exists_trim Text.isBlank document.toList
  obtain ⟨tokens, hscan, -, hvalue⟩ := read?_eq_some.1 h
  rw [hnull, List.append_assoc] at hcs
  rw [Token.scan?, hcs] at hscan
  obtain ⟨fuel, hscan⟩ := Token.scanWithin_blanks hbefore hscan
  cases fuel with
  | zero => cases hscan
  | succ fuel =>
    rw [show "null".toList ++ after = 'n' :: 'u' :: 'l' :: 'l' :: after by rfl,
      Token.scanWithin_token (by decide) rfl, Option.map_eq_some_iff] at hscan
    obtain ⟨tokens', hafter', rfl⟩ := hscan
    cases hvalue
    rfl

/-- A document that can be read is decoded from its value. -/
theorem Node.parse_eq_of_read {document : String} {j : Json} (h : read? document = some j) :
    Node.parse document = (Decode.ofJson j).bind fun n => n.elim (.error .null) .ok := by
  rw [Node.parse, if_neg (trim_ne_nil_of_read h)]
  split
  next hnull =>
    rw [eq_null_of_read h hnull]
    rfl
  next =>
    rw [h]
    dsimp only
    rcases Decode.ofJson j with _ | _ | _ <;> rfl

theorem Node.parse_of_read {document : String} {j : Json} (h : read? document = some j) (n : Node) :
    Node.parse document = .ok n ↔ Decode.ofJson j = .ok (some n) := by
  rw [Node.parse_eq_of_read h]
  rcases Decode.ofJson j with _ | _ | _ <;> simp [Except.bind]

theorem Node.parse_eq_ok {document : String} {n : Node} :
    Node.parse document = .ok n
      ↔ ∃ j, read? document = some j ∧ Decode.ofJson j = .ok (some n) := by
  cases hread : read? document with
  | some j => simp [Node.parse_of_read hread]
  | none =>
    rw [Node.parse, hread]
    split_ifs <;> simp

/-- A document without repeated keys is a syntax tree if and only if its value is a node object.  A
document that nests deeper than `Json.nestingLimit` is not read and has no value, so nothing is said
about it. -/
theorem Node.parse_succeeds {document : String} {j : Json} (hread : read? document = some j)
    (hkeys : j.KeysDistinct) : (∃ n, Node.parse document = .ok n) ↔ j.IsNode := by
  have hfits := Decode.ofJson_succeeds hkeys
  simp only [Node.parse_of_read hread]
  constructor
  · rintro ⟨n, hn⟩
    cases hfits.1 ⟨_, hn⟩ with
    | null => cases hn
    | child hnode => exact hnode
  · intro hnode
    obtain ⟨o, ho⟩ := hfits.2 (.child hnode)
    cases hnode with
    | object =>
      obtain ⟨n, -, rfl⟩ := Decode.ofJson_object.1 ho
      exact ⟨n, ho⟩

/-- A function with a name, an absent parameter and no body. -/
theorem Node.parse_succeeds_function : ∃ j,
    read? ("\x7b\"type\":\"FunctionDeclaration\"," ++
      "\"id\":\x7b\"type\":\"Identifier\"\x7d,\"params\":[null]\x7d") = some j ∧
    j.KeysDistinct ∧ j.IsNode := by
  let j : Json := .object [(⟨"type", 0⟩, .string "FunctionDeclaration"),
    (⟨"id", 0⟩, .object [(⟨"type", 0⟩, .string "Identifier")]), (⟨"params", 0⟩, .array [.null])]
  have hread : read? ("\x7b\"type\":\"FunctionDeclaration\"," ++
      "\"id\":\x7b\"type\":\"Identifier\"\x7d,\"params\":[null]\x7d") = some j := by
    cbv
  have hkeys : j.KeysDistinct := by
    refine .object (by decide) ?_
    simp only [List.forall_mem_cons, List.not_mem_nil, false_imp_iff, implies_true, and_true]
    refine ⟨.string, .object (by decide) ?_, .array ?_⟩
    · simpa using .string
    · simpa using .null
  have hparse : Decode.ofJson j
      = .ok (some (.functionDeclaration (some ⟨"", {}⟩) [none] none {})) := by
    rfl
  have hparses := (Node.parse_of_read hread _).2 hparse
  exact ⟨j, hread, hkeys, (Node.parse_succeeds hread hkeys).1 ⟨_, hparses⟩⟩

end Scaffold
