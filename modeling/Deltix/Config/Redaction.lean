import Deltix.Text.Json
import Mathlib.Data.List.Infix

/-
  What an export of the configuration shows of the strings
  under sensitive keys.

  Assigning to `__proto__` gives an object a prototype, so
  what a configuration has under that name is not a member
  of its export.

  Key definitions include:
    * `ConfigValue`
    * `sanitizeValue`
    * `DiffersInSecrets`
    * `SecretsAreDirect`

  Key theorems include:
    * `sanitizeValue_eq_iff`
-/

------------------------------------------------------------
-- Values
------------------------------------------------------------

namespace Config

open Text

/- The name of a member that is not `__proto__`. -/
structure ConfigKey where
  name : JsString
  plain : name ≠ js "__proto__"
  deriving DecidableEq

/- A name of the source. -/
def key
    (name : String)
    (plain : js name ≠ js "__proto__" := by decide) :
    ConfigKey :=
  ⟨js name, plain⟩

/-
  A value of a configuration.  What stands under `__proto__`
  comes first: a property of its own in a configuration, the
  prototype in an export.
-/
inductive ConfigValue (Number : Type) where
  | undefined
  | null
  | bool (value : Bool)
  | number (value : Number)
  | string (value : JsString)
  | array (elements : List (ConfigValue Number))
  | object
      (proto : Option (ConfigValue Number))
      (members : List (ConfigKey × ConfigValue Number))

/- A letter of ASCII without its case. -/
def lowerUnit (unit : UInt16) : UInt16 :=
  if 0x41 ≤ unit.toNat ∧ unit.toNat ≤ 0x5A then unit + 0x20
  else unit

def SENSITIVE_KEY_PATTERNS : List JsString :=
  [js "password", js "secret", js "privatekey", js "token",
    js "licensekey", js "credential"]

def isSensitiveKey (key : JsString) : Bool :=
  SENSITIVE_KEY_PATTERNS.any fun pattern =>
    decide (pattern <:+: key.map lowerUnit)

def REDACTED : JsString :=
  js "[REDACTED]"

variable {Number : Type}

/- What is stored for a value under a key. -/
def redact
    (key : JsString)
    (value sanitized : ConfigValue Number) :
    ConfigValue Number :=
  match value with
  | .string text =>
      if isSensitiveKey key ∧ 0 < text.length then
        .string REDACTED
      else sanitized
  | _ => sanitized

/- What becomes of an object when its prototype is set. -/
def setPrototype :
    ConfigValue Number → Option (ConfigValue Number)
  | .null => some .null
  | .array elements => some (.array elements)
  | .object proto members => some (.object proto members)
  | _ => none

mutual

def sanitizeValue : ConfigValue Number → ConfigValue Number
  | .undefined => .undefined
  | .null => .null
  | .bool value => .bool value
  | .number value => .number value
  | .string value => .string value
  | .array elements => .array (sanitizeElements elements)
  | .object proto members =>
      .object (sanitizeProto proto) (sanitizeMembers members)

def sanitizeElements :
    List (ConfigValue Number) → List (ConfigValue Number)
  | [] => []
  | element :: rest =>
      sanitizeValue element :: sanitizeElements rest

def sanitizeProto :
    Option (ConfigValue Number) → Option (ConfigValue Number)
  | none => none
  | some value =>
      setPrototype
        (redact (js "__proto__") value (sanitizeValue value))

def sanitizeMembers :
    List (ConfigKey × ConfigValue Number) →
      List (ConfigKey × ConfigValue Number)
  | [] => []
  | (key, value) :: rest =>
      (key, redact key.name value (sanitizeValue value)) ::
        sanitizeMembers rest

end

def exportSanitizedConfig
    (config : ConfigValue Number) : ConfigValue Number :=
  sanitizeValue config

mutual

/-
  Two values of one shape that differ in strings only, which
  are not empty and stand under a sensitive key, or within an
  array or object that does.
-/
def DiffersInSecrets
    (under : Bool) :
    ConfigValue Number → ConfigValue Number → Prop
  | .undefined, .undefined => True
  | .null, .null => True
  | .bool value, .bool other => value = other
  | .number value, .number other => value = other
  | .string value, .string other =>
      value = other ∨
        (under = true ∧ value ≠ [] ∧ other ≠ [])
  | .array elements, .array others =>
      ElementsDiffer under elements others
  | .object proto members, .object otherProto others =>
      ProtoDiffers under proto otherProto ∧
        MembersDiffer under members others
  | _, _ => False

def ElementsDiffer
    (under : Bool) :
    List (ConfigValue Number) →
      List (ConfigValue Number) → Prop
  | [], [] => True
  | element :: rest, other :: others =>
      DiffersInSecrets under element other ∧
        ElementsDiffer under rest others
  | _, _ => False

def ProtoDiffers
    (under : Bool) :
    Option (ConfigValue Number) →
      Option (ConfigValue Number) → Prop
  | none, none => True
  | some value, some other => DiffersInSecrets under value other
  | _, _ => False

def MembersDiffer
    (under : Bool) :
    List (ConfigKey × ConfigValue Number) →
      List (ConfigKey × ConfigValue Number) → Prop
  | [], [] => True
  | (key, value) :: rest, (otherKey, other) :: others =>
      key = otherKey ∧
        DiffersInSecrets (under || isSensitiveKey key.name)
          value other ∧
        MembersDiffer under rest others
  | _, _ => False

end

mutual

/-
  Two values of one shape that differ in strings only that are
  stored directly under a sensitive key, or under `__proto__`.
-/
def SecretsAreDirect
    (direct : Bool) :
    ConfigValue Number → ConfigValue Number → Prop
  | .string value, .string other =>
      value = other ∨ direct = true
  | .array elements, .array others =>
      ElementsAreDirect elements others
  | .object proto members, .object otherProto others =>
      ProtoIsDirect proto otherProto ∧
        MembersAreDirect members others
  | _, _ => True

def ElementsAreDirect :
    List (ConfigValue Number) →
      List (ConfigValue Number) → Prop
  | element :: rest, other :: others =>
      SecretsAreDirect false element other ∧
        ElementsAreDirect rest others
  | _, _ => True

def ProtoIsDirect :
    Option (ConfigValue Number) →
      Option (ConfigValue Number) → Prop
  | some value, some other => SecretsAreDirect true value other
  | _, _ => True

def MembersAreDirect :
    List (ConfigKey × ConfigValue Number) →
      List (ConfigKey × ConfigValue Number) → Prop
  | (key, value) :: rest, (_, other) :: others =>
      SecretsAreDirect (isSensitiveKey key.name) value other ∧
        MembersAreDirect rest others
  | _, _ => True

end

variable {value other : ConfigValue Number}
variable {key : JsString} {under : Bool}

/- A value is stored as it is sanitized, but for a string
   under a sensitive key. -/
theorem redact_of_not_string
    (key : JsString)
    (sanitized : ConfigValue Number)
    (hValue : ∀ text, value ≠ .string text) :
    redact key value sanitized = sanitized := by
  cases value with
  | string text => exact absurd rfl (hValue text)
  | undefined => rfl
  | null => rfl
  | bool value => rfl
  | number value => rfl
  | array elements => rfl
  | object proto members => rfl

theorem redact_string_eq_iff
    {text otherText : JsString}
    (hTexts :
      text = otherText ∨ (text ≠ [] ∧ otherText ≠ [])) :
    (redact key (.string text) (.string text) :
          ConfigValue Number) =
        redact key (.string otherText) (.string otherText) ↔
      text = otherText ∨ isSensitiveKey key = true := by
  unfold redact
  dsimp only
  rcases hTexts with hSame | ⟨hText, hOther⟩
  · simp [hSame]
  · have hLength := List.length_pos_iff.mpr hText
    have hOtherLength := List.length_pos_iff.mpr hOther
    cases hKey : isSensitiveKey key with
    | true => simp [hLength, hOtherLength]
    | false => simp

/- A string is no prototype. -/
theorem setPrototype_redact_string
    (text : JsString) :
    setPrototype
        (redact (js "__proto__") (.string text)
          (.string text) : ConfigValue Number) =
      none := by
  unfold redact
  dsimp only
  split
  · rfl
  · rfl

/- What is the same shape as a string is a string. -/
theorem string_or_not
    (hDiffer : DiffersInSecrets under value other) :
    (∃ text otherText,
        value = .string text ∧ other = .string otherText ∧
          (text = otherText ∨
            (text ≠ [] ∧ otherText ≠ []))) ∨
      ((∀ text, value ≠ .string text) ∧
        ∀ text, other ≠ .string text) := by
  cases value with
  | string text =>
      cases other with
      | string otherText =>
          left
          refine ⟨text, otherText, rfl, rfl, ?_⟩
          unfold DiffersInSecrets at hDiffer
          rcases hDiffer with hSame | ⟨_, hText, hOther⟩
          · exact Or.inl hSame
          · exact Or.inr ⟨hText, hOther⟩
      | _ =>
          unfold DiffersInSecrets at hDiffer
          cases hDiffer
  | _ =>
      right
      constructor
      · intro text hText
        cases hText
      · intro text hText
        subst hText
        unfold DiffersInSecrets at hDiffer
        cases hDiffer

theorem secretsAreDirect_of_not_string
    (direct : Bool)
    (hValue : ∀ text, value ≠ .string text) :
    SecretsAreDirect direct value other ↔
      SecretsAreDirect false value other := by
  cases value with
  | string text => exact absurd rfl (hValue text)
  | _ =>
      unfold SecretsAreDirect
      cases other with
      | _ => rfl

------------------------------------------------------------
-- What An Export Tells
------------------------------------------------------------

/- A member tells what it holds, but for a string that is
   redacted. -/
theorem redact_eq_iff
    (hDiffer : DiffersInSecrets under value other)
    (hSanitized :
      sanitizeValue value = sanitizeValue other ↔
        SecretsAreDirect false value other) :
    redact key value (sanitizeValue value) =
        redact key other (sanitizeValue other) ↔
      SecretsAreDirect (isSensitiveKey key) value other := by
  rcases string_or_not hDiffer with
    ⟨text, otherText, hValue, hOther, hTexts⟩ |
      ⟨hValue, hOther⟩
  · subst hValue hOther
    unfold sanitizeValue SecretsAreDirect
    exact redact_string_eq_iff hTexts
  · rw [redact_of_not_string key _ hValue,
      redact_of_not_string key _ hOther, hSanitized]
    exact (secretsAreDirect_of_not_string _ hValue).symm

/- A prototype tells what it holds, but a string is none. -/
theorem prototype_eq_iff
    (hDiffer : DiffersInSecrets under value other)
    (hSanitized :
      sanitizeValue value = sanitizeValue other ↔
        SecretsAreDirect false value other) :
    setPrototype
          (redact (js "__proto__") value
            (sanitizeValue value)) =
        setPrototype
          (redact (js "__proto__") other
            (sanitizeValue other)) ↔
      SecretsAreDirect true value other := by
  rcases string_or_not hDiffer with
    ⟨text, otherText, hValue, hOther, hTexts⟩ |
      ⟨hValue, hOther⟩
  · subst hValue hOther
    unfold sanitizeValue SecretsAreDirect
    rw [setPrototype_redact_string,
      setPrototype_redact_string]
    simp
  · rw [redact_of_not_string _ _ hValue,
      redact_of_not_string _ _ hOther,
      secretsAreDirect_of_not_string _ hValue, ← hSanitized]
    constructor
    · intro hSame
      cases value with
      | string text => exact absurd rfl (hValue text)
      | array elements =>
          cases other with
          | array others =>
              unfold sanitizeValue at hSame ⊢
              exact Option.some.inj hSame
          | _ =>
              unfold DiffersInSecrets at hDiffer
              cases hDiffer
      | object proto members =>
          cases other with
          | object otherProto others =>
              unfold sanitizeValue at hSame ⊢
              exact Option.some.inj hSame
          | _ =>
              unfold DiffersInSecrets at hDiffer
              cases hDiffer
      | _ =>
          cases other with
          | _ =>
              unfold DiffersInSecrets at hDiffer
              cases hDiffer
              all_goals rfl
    · intro hSame
      rw [hSame]

mutual

/- By recursion on the first value; the second has its
   shape. -/
theorem sanitizeValue_eq_iff
    (under : Bool) :
    ∀ value other : ConfigValue Number,
      DiffersInSecrets under value other →
      (sanitizeValue value = sanitizeValue other ↔
        SecretsAreDirect false value other)
  | .array elements, other, hDiffer => by
      cases other with
      | array others =>
          unfold DiffersInSecrets at hDiffer
          unfold sanitizeValue SecretsAreDirect
          rw [ConfigValue.array.injEq]
          exact
            sanitizeElements_eq_iff under elements others
              hDiffer
      | _ =>
          unfold DiffersInSecrets at hDiffer
          cases hDiffer
  | .object proto members, other, hDiffer => by
      cases other with
      | object otherProto others =>
          unfold DiffersInSecrets at hDiffer
          unfold sanitizeValue SecretsAreDirect
          rw [ConfigValue.object.injEq,
            sanitizeProto_eq_iff under proto otherProto
              hDiffer.1,
            sanitizeMembers_eq_iff under members others
              hDiffer.2]
      | _ =>
          unfold DiffersInSecrets at hDiffer
          cases hDiffer
  | .undefined, other, hDiffer => by
      cases other with
      | undefined => simp [SecretsAreDirect]
      | _ =>
          unfold DiffersInSecrets at hDiffer
          cases hDiffer
  | .null, other, hDiffer => by
      cases other with
      | null => simp [SecretsAreDirect]
      | _ =>
          unfold DiffersInSecrets at hDiffer
          cases hDiffer
  | .bool value, other, hDiffer => by
      cases other with
      | bool otherValue =>
          unfold DiffersInSecrets at hDiffer
          simp [SecretsAreDirect, hDiffer]
      | _ =>
          unfold DiffersInSecrets at hDiffer
          cases hDiffer
  | .number value, other, hDiffer => by
      cases other with
      | number otherValue =>
          unfold DiffersInSecrets at hDiffer
          simp [SecretsAreDirect, hDiffer]
      | _ =>
          unfold DiffersInSecrets at hDiffer
          cases hDiffer
  | .string text, other, hDiffer => by
      cases other with
      | string otherText =>
          unfold sanitizeValue SecretsAreDirect
          simp
      | _ =>
          unfold DiffersInSecrets at hDiffer
          cases hDiffer

theorem sanitizeElements_eq_iff
    (under : Bool) :
    ∀ elements others : List (ConfigValue Number),
      ElementsDiffer under elements others →
      (sanitizeElements elements = sanitizeElements others ↔
        ElementsAreDirect elements others)
  | [], [], _ => by simp [ElementsAreDirect]
  | element :: rest, other :: others, hDiffer => by
      unfold ElementsDiffer at hDiffer
      unfold sanitizeElements ElementsAreDirect
      rw [List.cons.injEq,
        sanitizeValue_eq_iff under element other hDiffer.1,
        sanitizeElements_eq_iff under rest others hDiffer.2]
  | [], other :: others, hDiffer => by
      unfold ElementsDiffer at hDiffer
      cases hDiffer
  | element :: rest, [], hDiffer => by
      unfold ElementsDiffer at hDiffer
      cases hDiffer

theorem sanitizeProto_eq_iff
    (under : Bool) :
    ∀ proto other : Option (ConfigValue Number),
      ProtoDiffers under proto other →
      (sanitizeProto proto = sanitizeProto other ↔
        ProtoIsDirect proto other)
  | none, none, _ => by simp [ProtoIsDirect]
  | some value, some other, hDiffer => by
      unfold ProtoDiffers at hDiffer
      unfold sanitizeProto ProtoIsDirect
      exact
        prototype_eq_iff hDiffer
          (sanitizeValue_eq_iff under value other hDiffer)
  | none, some other, hDiffer => by
      unfold ProtoDiffers at hDiffer
      cases hDiffer
  | some value, none, hDiffer => by
      unfold ProtoDiffers at hDiffer
      cases hDiffer

theorem sanitizeMembers_eq_iff
    (under : Bool) :
    ∀ members others : List (ConfigKey × ConfigValue Number),
      MembersDiffer under members others →
      (sanitizeMembers members = sanitizeMembers others ↔
        MembersAreDirect members others)
  | [], [], _ => by simp [MembersAreDirect]
  | (key, value) :: rest, (otherKey, other) :: others,
      hDiffer => by
      unfold MembersDiffer at hDiffer
      rcases hDiffer with ⟨hKey, hValue, hRest⟩
      subst hKey
      have hMember :
          redact key.name value (sanitizeValue value) =
              redact key.name other (sanitizeValue other) ↔
            SecretsAreDirect (isSensitiveKey key.name) value
              other :=
        redact_eq_iff hValue
          (sanitizeValue_eq_iff _ value other hValue)
      unfold sanitizeMembers MembersAreDirect
      rw [List.cons.injEq, Prod.mk.injEq, hMember,
        sanitizeMembers_eq_iff under rest others hRest]
      simp
  | [], other :: others, hDiffer => by
      unfold MembersDiffer at hDiffer
      cases hDiffer
  | member :: rest, [], hDiffer => by
      unfold MembersDiffer at hDiffer
      cases hDiffer

end

end Config
