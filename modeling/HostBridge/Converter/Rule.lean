import HostBridge.Converter

/-!
# Conversion rules

A host extends the standard conversion by rules.  A rule is asked before the
standard conversion and may decline.  It may ask the whole converter about other
values, for instance about the parts of a value it takes apart, but only about
*smaller* questions.  Toward the host a question is smaller if its value weighs
less, or weighs the same and is asked at a lighter type.  Toward the script it is
smaller if its value weighs less.  So every question has an answer after finitely
many steps, whatever the rules are.
-/

namespace HostBridge.Converter

/-- Whether asking for `v'` at `t'` is a smaller question than asking for `v` at `t`. -/
def Smaller (v' : Script.Value) (t' : Host.Ty) (v : Script.Value) (t : Host.Ty) : Prop :=
  v'.weight < v.weight ∨ v'.weight = v.weight ∧ t'.weight < t.weight

/-- A rule a host adds to the standard conversion. -/
structure Rule where
  /-- The host value of type `t` for `v`, or nothing if the rule does not apply.
  `ask` is the whole converter, for smaller questions. -/
  toHost : (v : Script.Value) → (t : Host.Ty) →
    (ask : (v' : Script.Value) → (t' : Host.Ty) → Smaller v' t' v t → Option Host.Value) →
    Option Host.Value
  /-- The script value for `v` or the reason why there is none, or nothing if the
  rule does not apply.  `ask` is the whole converter, for smaller values. -/
  toScript : (v : Host.Value) →
    (ask : (v' : Host.Value) → v'.weight < v.weight → Except ConversionError Script.Value) →
    Option (Except ConversionError Script.Value)

end HostBridge.Converter
