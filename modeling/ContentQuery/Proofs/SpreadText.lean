import Mathlib.Data.List.Infix
import ContentQuery.Proofs.SpreadGraph

namespace ContentQuery.Compile

/-- The text holds the spread of the name. -/
def Written (name text : String) : Prop := (spread name).toList <:+: text.toList

variable {ctx : Context} {name : String}

theorem Written.append_left {text : String} (h : Written name text) (before : String) :
    Written name (before ++ text) := by
  rw [Written, String.toList_append]
  exact h.trans (List.suffix_append _ _).isInfix

theorem Written.append_right {text : String} (h : Written name text) (after : String) :
    Written name (text ++ after) := by
  rw [Written, String.toList_append]
  exact h.trans (List.prefix_append _ _).isInfix

theorem written_spread (name : String) : Written name (spread name) := List.infix_rfl

theorem Written.braced {text : String} (h : Written name text) : Written name (braced text) :=
  (h.append_left "\x7b ").append_right " \x7d"

theorem infix_foldl {part : List Char} (fields : List String) {body : String}
    (h : part <:+: body.toList) :
    part <:+: (fields.foldl (fun body field => body ++ " " ++ field) body).toList := by
  induction fields generalizing body with
  | nil => exact h
  | cons field fields ih =>
      rw [List.foldl_cons]
      apply ih
      rw [String.append_assoc, String.toList_append]
      exact h.trans (List.prefix_append _ _).isInfix

theorem infix_typedBody {fields : List String} {field : String} (h : field ∈ fields) :
    field.toList <:+: (typedBody fields).toList := by
  obtain ⟨before, after, rfl⟩ := List.append_of_mem h
  rw [typedBody, List.foldl_append, List.foldl_cons]
  refine infix_foldl after ?_
  rw [String.toList_append]
  exact (List.suffix_append _ _).isInfix

theorem written_typedBody {fields : List String} {field : String} (hfield : field ∈ fields)
    (h : Written name field) : Written name (typedBody fields) :=
  h.trans (infix_typedBody hfield)

theorem written_spreads {names : List String} (h : name ∈ names) :
    Written name (typedBody (spreads names)) :=
  written_typedBody (Keyed.mem_firsts_id.mpr (List.mem_map_of_mem h)) (written_spread name)

theorem written_field (field' : String) {w : Node} : ∀ kind : PropertyKind,
    w ∈ kindTargets ctx kind → Written w.name (field ctx field' kind)
  | .component _, h => by
      obtain rfl := List.mem_singleton.mp h
      exact (written_spread _).braced.append_left _
  | .content _ _, h => by
      obtain ⟨key, hkey, rfl⟩ := List.mem_map.mp h
      rw [show (Node.type key false).name = key by simp [Node.name]]
      exact (written_spreads hkey).braced.append_left _
  | .array ⟨kind, _⟩, h => written_field field' kind h

theorem Written.aliased {text : String} (h : Written name text) (t : ContentType)
    (field : String) : Written name (aliased t field text) := by
  unfold Compile.aliased
  split
  · exact h
  · exact h.append_left (t.key ++ "__" ++ field ++ ": ")

theorem written_metadataField : Written mediaMetadataName mediaMetadataField :=
  (written_spread mediaMetadataName).braced.append_left "_metadata "

theorem written_declaredBody {t : ContentType} {w : Node} (h : w ∈ declaredTargets ctx t) :
    Written w.name (declaredBody ctx t) := by
  -- The target's field is one of the fields whose first occurrences make the body.
  suffices hfield : ∃ field, Written w.name field ∧ field ∈ fields ctx t t.properties ++
      (if t.baseType.isMedia then [mediaMetadataField] else []) ++
      (if t.baseType = .experience then [spread experienceDataName] else []) by
    obtain ⟨field, hwritten, hmem⟩ := hfield
    exact written_typedBody (Keyed.mem_firsts_id.mpr hmem) hwritten
  rw [List.append_assoc]
  rcases mem_declaredTargets.mp h with
    ⟨rfl, hmedia⟩ | ⟨property, hproperty, hw⟩ | ⟨rfl, hexperience⟩
  · refine ⟨_, written_metadataField, List.mem_append_right _ (List.mem_append_left _ ?_)⟩
    simp [hmedia]
  · exact ⟨_, (written_field property.1 property.2.kind hw).aliased t property.1,
      List.mem_append_left _ (List.mem_map_of_mem hproperty)⟩
  · refine ⟨_, written_spread experienceDataName,
      List.mem_append_right _ (List.mem_append_right _ ?_)⟩
    simp [hexperience]

theorem written_baseBody {base : BaseType} {w : Node} (h : w ∈ metadataTargets base) :
    Written w.name (baseBody base) := by
  obtain ⟨rfl, hmedia⟩ := mem_metadataTargets.mp h
  exact written_typedBody (by simp [hmedia]) written_metadataField

/-- A name that a fragment spreads is written in its body. -/
theorem Spreads.written {f : Fragment} (h : Spreads ctx f name) : Written name f.body := by
  obtain ⟨v, w, hv, hw, rfl⟩ := h
  cases v with
  | type key suffixed =>
      rcases Node.eq_of_fragment?_type hv with ⟨base, hb, rfl⟩ | ⟨t, ht, rfl⟩
      · rw [Leads, Node.targets_builtin hb] at hw
        exact written_baseBody hw
      · rw [Leads, Node.targets_declared ht] at hw
        exact written_declaredBody hw
  | mediaMetadata => exact absurd hw List.not_mem_nil
  | experienceData =>
      obtain rfl := Option.some.inj hv
      obtain rfl := List.mem_singleton.mp hw
      exact (written_spread compositionNodeName).braced.append_left "composition "
  | compositionNode =>
      obtain rfl := Option.some.inj hv
      obtain rfl := List.mem_singleton.mp hw
      exact ((written_spread compositionComponentName).braced.append_left "component ").braced
        |>.append_left _
  | compositionComponent =>
      obtain rfl := Option.some.inj hv
      obtain ⟨key, hkey, rfl⟩ := List.mem_map.mp hw
      rw [show (Node.type key false).name = key by simp [Node.name]]
      exact written_spreads hkey

end ContentQuery.Compile
