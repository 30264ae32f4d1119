import Acceptor.Proofs.Fallible
import Acceptor.Yaml.Document
/-!
Tokens that make up a node, wherever a node is awaited: scalars, lists between brackets and records
between braces. What the tokens of a list or a record do follows from what those of its parts do.
-/
namespace Acceptor.Yaml

def separated : List (List Token) → List Token
  | [] => []
  | [last] => last
  | first :: second :: rest => first ++ .comma :: separated (second :: rest)

inductive Frame.Awaits : Frame → Prop where
  | document : Awaits (.document none)
  | item (anchor : Option Nat) (items : List Node) : Awaits (.flowSequence anchor items .open)
  | key (anchor : Option Nat) (entries : List (Node × Node)) :
    Awaits (.flowMapping anchor entries .key)
  | value (anchor : Option Nat) (entries : List (Node × Node)) (key : Node) :
    Awaits (.flowMapping anchor entries (.value key))

inductive Token.BeginsNode : Token → Prop where
  | scalar (style : Style) (text : Text) : BeginsNode (.scalar style text)
  | list : BeginsNode .flowSequenceStart
  | record : BeginsNode .flowMappingStart

namespace Composer

def inside (composer : Composer) (frame : Frame) : Composer :=
  { composer with frames := frame :: composer.frames, properties := {} }

def Composes (tokens : List Token) (node : Node) : Prop :=
  ∀ (composer : Composer) (frame delivered : Frame), frame.Awaits →
    frame.deliver? node = some delivered →
    tokens.foldlM take? (composer.inside frame) = some (composer.inside delivered)

theorem take?_of_awaits {composer : Composer} {frame : Frame} (awaits : frame.Awaits)
    {token : Token} (begins : token.BeginsNode) :
    (composer.inside frame).take? token = (composer.inside frame).node? token := by
  cases awaits <;> cases begins <;> rfl

theorem deliver?_inside {composer : Composer} {frame delivered : Frame} {node : Node}
    (delivers : frame.deliver? node = some delivered) :
    (composer.inside frame).deliver? node = some (composer.inside delivered) := by
  change (frame.deliver? node).bind _ = _
  rw [delivers]
  rfl

theorem composes_scalar (style : Style) (text : Text) :
    Composes [.scalar style text] (.scalar none none style text) := by
  intro composer frame delivered awaits delivers
  rw [List.foldlM_cons, take?_of_awaits awaits (.scalar style text)]
  change ((composer.inside frame).deliver? (.scalar none none style text)).bind _ = _
  rw [deliver?_inside delivers]
  rfl

/-! Parts with commas between them -/

variable {α : Type}

/-- Where every part puts its share into a frame, and a comma makes it ready for the next, the parts
together put in all of theirs, the last first. -/
theorem foldlM_separated {composer : Composer} {ready full : List α → Frame}
    (comma : ∀ taken, (composer.inside (full taken)).take? .comma =
      some (composer.inside (ready taken)))
    {parts : List (List Token × α)} (nonempty : parts ≠ [])
    (takes : ∀ part ∈ parts, ∀ taken, part.1.foldlM take? (composer.inside (ready taken)) =
      some (composer.inside (full (part.2 :: taken)))) (taken : List α) :
    (separated (parts.map Prod.fst)).foldlM take? (composer.inside (ready taken)) =
      some (composer.inside (full ((parts.map Prod.snd).reverse ++ taken))) := by
  induction parts generalizing taken with
  | nil => exact absurd rfl nonempty
  | cons first rest ih =>
    obtain ⟨here, later⟩ := List.forall_mem_cons.mp takes
    cases rest with
    | nil => exact here taken
    | cons second rest =>
      change (first.1 ++ .comma :: separated ((second :: rest).map Prod.fst)).foldlM take? _ = _
      rw [List.foldlM_append, here taken]
      change (.comma :: separated ((second :: rest).map Prod.fst)).foldlM take?
        (composer.inside (full (first.2 :: taken))) = _
      rw [List.foldlM_cons, comma]
      change (separated ((second :: rest).map Prod.fst)).foldlM take?
        (composer.inside (ready (first.2 :: taken))) = _
      rw [ih (List.cons_ne_nil _ _) later (first.2 :: taken)]
      simp

theorem composes_collection {start stop : Token} {ready full : List α → Frame}
    {node : List α → Node} (begins : start.BeginsNode)
    (opens : ∀ composer : Composer, ∀ frame,
      (composer.inside frame).node? start = some ((composer.inside frame).inside (ready [])))
    (comma : ∀ composer : Composer, ∀ taken,
      (composer.inside (full taken)).take? .comma = some (composer.inside (ready taken)))
    (empty : ∀ composer : Composer, ∀ frame,
      ((composer.inside frame).inside (ready [])).take? stop =
        (composer.inside frame).deliver? (node []))
    (stops : ∀ composer : Composer, ∀ frame taken,
      ((composer.inside frame).inside (full taken)).take? stop =
        (composer.inside frame).deliver? (node taken.reverse))
    {parts : List (List Token × α)}
    (takes : ∀ part ∈ parts, ∀ composer : Composer, ∀ taken,
      part.1.foldlM take? (composer.inside (ready taken)) =
        some (composer.inside (full (part.2 :: taken)))) :
    Composes (start :: (separated (parts.map Prod.fst) ++ [stop]))
      (node (parts.map Prod.snd)) := by
  intro composer frame delivered awaits delivers
  have body : (separated (parts.map Prod.fst) ++ [stop]).foldlM take?
      ((composer.inside frame).inside (ready [])) =
        (composer.inside frame).deliver? (node (parts.map Prod.snd)) := by
    -- A collection that is closed at once never leaves the frame in which the next part may begin.
    by_cases none : parts = []
    · subst none
      change ([stop].foldlM take? _ : Option Composer) = _
      rw [List.foldlM_cons, empty]
      exact Option.bind_fun_some _
    · have filled := foldlM_separated (comma (composer.inside frame)) none
        (fun part member => takes part member _) []
      rw [List.foldlM_append, filled, List.append_nil]
      change ([stop].foldlM take? _ : Option Composer) = _
      rw [List.foldlM_cons, stops, List.reverse_reverse]
      exact Option.bind_fun_some _
  rw [List.foldlM_cons, take?_of_awaits awaits begins, opens]
  exact body.trans (deliver?_inside delivers)

theorem composes_list {parts : List (List Token × Node)}
    (composes : ∀ part ∈ parts, Composes part.1 part.2) :
    Composes (.flowSequenceStart :: (separated (parts.map Prod.fst) ++ [.flowSequenceEnd]))
      (.sequence none (parts.map Prod.snd)) :=
  @composes_collection Node .flowSequenceStart .flowSequenceEnd (.flowSequence none · .open)
    (.flowSequence none · .closed) (.sequence none ·) .list (fun _ _ => rfl) (fun _ _ => rfl)
    (fun _ _ => rfl) (fun _ _ _ => rfl) parts
    (fun part member composer taken => composes part member composer _ _ (.item none taken) rfl)

def ComposesEntry (tokens : List Token) (entry : Node × Node) : Prop :=
  ∀ (composer : Composer) (entries : List (Node × Node)),
    tokens.foldlM take? (composer.inside (.flowMapping none entries .open)) =
      some (composer.inside (.flowMapping none (entry :: entries) .closed))

theorem composesEntry_field (key : Text) {tokens : List Token} {node : Node}
    (composes : Composes tokens node) :
    ComposesEntry (.key :: .scalar .quoted key :: .value :: tokens)
      (.scalar none none .quoted key, node) :=
  fun composer entries =>
    composes composer _ _ (.value none entries (.scalar none none .quoted key)) rfl

theorem composes_record {parts : List (List Token × (Node × Node))}
    (composes : ∀ part ∈ parts, ComposesEntry part.1 part.2) :
    Composes (.flowMappingStart :: (separated (parts.map Prod.fst) ++ [.flowMappingEnd]))
      (.mapping none (parts.map Prod.snd)) :=
  @composes_collection (Node × Node) .flowMappingStart .flowMappingEnd (.flowMapping none · .open)
    (.flowMapping none · .closed) (.mapping none ·) .record (fun _ _ => rfl) (fun _ _ => rfl)
    (fun _ _ => rfl) (fun _ _ _ => rfl) parts composes

end Composer

theorem Document.ofTokens?_record {tokens : List Token} {node : Node}
    (composes : Composer.Composes (.flowMappingStart :: tokens) node)
    (unmarked : ∀ token ∈ Token.flowMappingStart :: tokens, token ≠ .documentEnd) :
    Document.ofTokens? (.flowMappingStart :: tokens) = some ⟨some node⟩ := by
  have start : ({} : Composer) = ({ frames := [] } : Composer).inside (.document none) := rfl
  have tree : Node.ofTokens? [] (.flowMappingStart :: tokens) = some node := by
    rw [Node.ofTokens?, start, composes _ _ _ .document rfl]
    rfl
  have content : ∀ token ∈ Token.flowMappingStart :: tokens,
      decide (token ≠ .documentEnd) = true :=
    fun token member => decide_eq_true (unmarked token member)
  have dropped : (Token.flowMappingStart :: tokens).dropWhile (· ≠ .documentEnd) = [] := by
    have nothing := @List.dropWhile_append_of_pos _ _ _ [] content
    rwa [List.append_nil] at nothing
  have kept := List.takeWhile_append_dropWhile (p := (· ≠ .documentEnd))
    (l := Token.flowMappingStart :: tokens)
  rw [dropped, List.append_nil] at kept
  change Document.content? [] (.flowMappingStart :: tokens) = _
  rw [Document.content?, kept, dropped, tree]
  rfl

end Acceptor.Yaml
