import Mathlib
import CardArena.Proofs.Codec
import CardArena.Wire.Document
import CardArena.Wire.Message

/-!
# Documents and messages are read back

A catalog, settings, a request and a message are each written by one function and read by another, and
many hands have to agree for a value to survive: over thirty types, tags that stand among the fields of
their variant, fields that may be missing, integers of four widths.  Here every type gets its codec
(`Json.Codes`), from the names of single values up to whole documents, in the order in which the types
are built from each other.

A rule is the one type that no general law covers.  Its name, its category and the fields of the
category stand side by side in one object, which is read twice, once for the name and once for the rest;
`RuleKind.fields_eq` says what the two readings have to know of the fields.

The deepest document is a message with a snapshot, nine containers deep, where the reader of text
allows for a hundred and twenty-seven.

* `documents_round_trip` : what is written is read back, and what was read from any text is written so
  that it is read again.
-/

namespace CardArena

theorem TurnPhase.codes (reading : Reading) :
    Json.Codes 0 TurnPhase.toJson (TurnPhase.ofJson reading) :=
  Json.codes_name reading fun phase => by cases phase <;> rfl

theorem PlayerSource.codes (reading : Reading) :
    Json.Codes 0 PlayerSource.toJson (PlayerSource.ofJson reading) :=
  Json.codes_name reading fun source => by cases source <;> rfl

theorem Direction.codes (reading : Reading) :
    Json.Codes 0 Direction.toJson (Direction.ofJson reading) :=
  Json.codes_name reading fun direction => by cases direction <;> rfl

theorem TurnCountMode.codes (reading : Reading) :
    Json.Codes 0 TurnCountMode.toJson (TurnCountMode.ofJson reading) :=
  Json.codes_name reading fun mode => by cases mode <;> rfl

theorem Comparison.codes (reading : Reading) :
    Json.Codes 0 Comparison.toJson (Comparison.ofJson reading) :=
  Json.codes_name reading fun op => by cases op <;> rfl

theorem Trigger.codes : Json.Codes 1 Trigger.toJson Trigger.ofJson :=
  Json.Codes.tagged .direct [] fun trigger => by
    cases trigger <;>
      exact ⟨_, _, rfl, by simp,
        by simp [(TurnPhase.codes .direct).plain, (PlayerSource.codes .direct).plain,
          (Direction.codes .direct).plain, (Comparison.codes .direct).plain,
          (TurnCountMode.codes .direct).plain, Json.codes_int32.plain, Json.codes_uInt32.plain],
        by simp [ofTagged, Record.ofJson_obj, (TurnPhase.codes _).decodes,
          (PlayerSource.codes _).decodes, (Direction.codes _).decodes, (Comparison.codes _).decodes,
          (TurnCountMode.codes _).decodes, Json.codes_string.decodes, Json.codes_int32.decodes,
          Json.codes_uInt32.decodes]⟩

theorem Condition.codes : Json.Codes 1 Condition.toJson Condition.ofJson :=
  Json.Codes.tagged .direct [] fun condition => by
    cases condition <;>
      exact ⟨_, _, rfl, by simp,
        by simp [(Comparison.codes .direct).plain, Json.codes_int32.plain],
        by simp [ofTagged, Record.ofJson_obj, (Comparison.codes _).decodes,
          Json.codes_string.decodes, Json.codes_int32.decodes, Json.codes_bool.decodes]⟩

theorem Magnitude.codes : Json.Codes 1 Magnitude.toJson Magnitude.ofJson :=
  Json.Codes.tagged .direct [] fun magnitude => by
    cases magnitude <;>
      exact ⟨_, _, rfl, by simp, by simp [Json.codes_int32.plain],
        by simp [ofTagged, Record.ofJson_obj, Json.codes_int32.decodes]⟩

theorem PlayerTarget.codes : Json.Codes 0 PlayerTarget.toJson PlayerTarget.ofJson :=
  Json.codes_name .direct fun target => by cases target <;> rfl

theorem CardTarget.codes : Json.Codes 0 CardTarget.toJson CardTarget.ofJson :=
  Json.codes_name .direct fun target => by cases target <;> rfl

theorem EffectTarget.codes : Json.Codes 1 EffectTarget.toJson EffectTarget.ofJson where
  plain target more hmore := by
    cases target with
    | untargeted => trivial
    | player target => exact ⟨by omega, PlayerTarget.codes.plain target (Nat.zero_le _), trivial⟩
    | card target => exact ⟨by omega, CardTarget.codes.plain target (Nat.zero_le _), trivial⟩
  decodes target := by
    cases target with
    | untargeted => rfl
    | player target => exact congrArg (Except.map EffectTarget.player) (PlayerTarget.codes.decodes target)
    | card target => exact congrArg (Except.map EffectTarget.card) (CardTarget.codes.decodes target)

theorem Magnitude.codes_option :
    Json.Codes 1 (.ofOption Magnitude.toJson) (Json.decodeNullable Magnitude.ofJson) :=
  codes.nullable fun magnitude => by cases magnitude <;> simp [toJson, Json.ofType]

theorem Effect.codes : Json.Codes 3 Effect.toJson Effect.ofJson :=
  Json.Codes.record (by decide) fun e =>
    ⟨_, rfl, rfl,
      by simp [Trigger.codes.plain, Condition.codes.list.plain, EffectTarget.codes.plain,
        Magnitude.codes_option.plain],
      by simp [Json.codes_string.decodes, Json.codes_bool.decodes, Trigger.codes.decodes,
        Condition.codes.list.decodes, EffectTarget.codes.decodes, Magnitude.codes_option.decodes]⟩

/-! ## Catalogs and settings -/

theorem Json.codes_string_option :
    Json.Codes 0 (.ofOption .str) (Json.decodeNullable Json.decodeString) :=
  codes_string.nullable fun s => by simp

theorem ZoneKind.codes : Json.Codes 0 ZoneKind.toJson ZoneKind.ofJson :=
  Json.codes_name .direct fun kind => by cases kind <;> rfl

theorem ZoneLayout.codes : Json.Codes 1 ZoneLayout.toJson ZoneLayout.ofJson :=
  Json.Codes.record (by decide) fun z =>
    ⟨_, rfl, rfl, by simp [ZoneKind.codes.plain],
      by simp [Json.codes_string.decodes, Json.codes_bool.decodes, ZoneKind.codes.decodes]⟩

theorem PlayerAttribute.codes : Json.Codes 1 PlayerAttribute.toJson PlayerAttribute.ofJson :=
  Json.Codes.record (by decide) fun a =>
    ⟨_, rfl, rfl, by simp [Json.codes_int32.plain],
      by simp [Json.codes_string.decodes, Json.codes_int32.decodes]⟩

theorem PlayerAction.codes (reading : Reading) :
    Json.Codes 1 PlayerAction.toJson (PlayerAction.ofJson reading) :=
  Json.Codes.tagged reading variants fun action => by
    cases action <;>
      exact ⟨_, _, rfl, by simp, by simp,
        by simp [ofTagged, Record.ofJson_obj, Json.codes_string.decodes]⟩

theorem CardAction.codes (reading : Reading) :
    Json.Codes 1 CardAction.toJson (CardAction.ofJson reading) :=
  Json.Codes.tagged reading variants fun action => by
    cases action <;>
      exact ⟨_, _, rfl, by simp, by simp,
        by simp [ofTagged, Record.ofJson_obj, Json.codes_string.decodes]⟩

theorem GeneralAction.codes (reading : Reading) :
    Json.Codes 1 GeneralAction.toJson (GeneralAction.ofJson reading) :=
  Json.Codes.tagged reading ["CreateToken"] fun action => by
    cases action
    exact ⟨_, _, rfl, by simp, by simp,
      by simp [ofTagged, Record.ofJson_obj, Json.codes_string.decodes]⟩

namespace RuleKind

/-- The fields of a rule behind its name are its category and what that category brings with it. -/
theorem fields_eq (kind : RuleKind) : ∃ variant fields,
    kind.fields = ("category", .str variant) :: fields ∧
      "category" ∉ fields.map Prod.fst ∧ "name" ∉ fields.map Prod.fst ∧
      Json.FieldsPlain 1 fields ∧ ofTagged ⟨variant, .obj fields⟩ = .ok kind := by
  cases kind <;>
    exact ⟨_, _, rfl, by simp, by simp,
      by simp [(PlayerAction.codes .replayed).plain, (CardAction.codes .replayed).plain,
        (GeneralAction.codes .replayed).plain, Json.codes_string_option.plain],
      by simp [ofTagged, Record.ofJson_obj, (PlayerAction.codes _).decodes,
        (CardAction.codes _).decodes, (GeneralAction.codes _).decodes,
        Json.codes_string_option.decodes]⟩

end RuleKind

theorem Rule.codes : Json.Codes 2 Rule.toJson Rule.ofJson where
  plain r more hmore := by
    obtain ⟨variant, fields, hfields, -, -, hplain, -⟩ := r.kind.fields_eq
    rw [toJson, hfields]
    exact ⟨by omega, trivial, trivial, Json.FieldsPlain.mono (by omega) hplain⟩
  decodes r := by
    obtain ⟨variant, fields, hfields, htag, hname, hplain, hdecode⟩ := r.kind.fields_eq
    have hrest : ∀ field ∈ ("category", Json.str variant) :: fields, field.1 ≠ "name" := by
      intro field hfield
      rcases List.mem_cons.mp hfield with rfl | hfield
      · exact (by decide : "category" ≠ "name")
      · intro heq
        exact hname (heq ▸ List.mem_map_of_mem hfield)
    have hnamed : Record.ofJson ["name"]
        (.obj (("name", .str r.name) :: ("category", .str variant) :: fields)) =
          .ok ⟨[("name", .str r.name)], false⟩ := by
      have hknown : (("name", Json.str r.name) :: ("category", .str variant) :: fields).filter
          (fun field => ["name"].contains field.1) = [("name", .str r.name)] := by
        rw [List.filter_cons_of_pos (by simp), List.filter_eq_nil_iff.mpr]
        intro field hfield
        simpa using hrest field hfield
      rw [Record.ofJson_known, hknown]
      exact Record.ofJson_obj rfl (by decide)
    have hfilter : (("name", Json.str r.name) :: ("category", .str variant) :: fields).filter
        (fun field => decide (field.1 ≠ "name")) = ("category", .str variant) :: fields := by
      rw [List.filter_cons_of_neg (by simp), List.filter_eq_self]
      intro field hfield
      simpa using hrest field hfield
    have husable : (Json.obj (("category", .str variant) :: fields)).isUsable = true :=
      hplain.usable
    rw [toJson, hfields, ofJson, hnamed, hfilter, Tagged.ofJson, if_pos husable,
      Tagged.split_obj _ _ _ _ htag]
    simp [hdecode, Json.codes_string.decodes]

theorem CardType.codes : Json.Codes 5 CardType.toJson CardType.ofJson :=
  Json.Codes.record (by decide) fun t =>
    ⟨_, rfl, rfl, by simp [Attributes.codes.plain, Effect.codes.list.plain],
      by simp [Json.codes_string.decodes, Json.codes_bool.decodes, Attributes.codes.decodes,
        Effect.codes.list.decodes]⟩

theorem Cost.codes : Json.Codes 1 Cost.toJson Cost.ofJson :=
  Json.Codes.record (by decide) fun c =>
    ⟨_, rfl, rfl, by simp [Json.codes_int32.plain],
      by simp [Json.codes_string.decodes, Json.codes_int32.decodes]⟩

theorem CardDesign.codes : Json.Codes 5 CardDesign.toJson CardDesign.ofJson :=
  Json.Codes.record (by decide) fun d =>
    ⟨_, rfl, rfl,
      by simp [CardId.codes.plain, Json.codes_uInt32.plain, Json.codes_string.list.plain,
        Effect.codes.list.plain, Cost.codes.list.plain],
      by simp [CardId.codes.decodes, Json.codes_uInt32.decodes, Json.codes_string.decodes,
        Json.codes_string.list.decodes, Effect.codes.list.decodes, Cost.codes.list.decodes]⟩

theorem PlayerGroup.codes : Json.Codes 0 PlayerGroup.toJson PlayerGroup.ofJson :=
  Json.codes_name .direct fun group => by cases group <;> rfl

theorem GameAction.codes : Json.Codes 1 GameAction.toJson GameAction.ofJson :=
  Json.Codes.tagged .direct [] fun action => by
    cases action <;>
      exact ⟨_, _, rfl, by simp, by simp [Json.codes_int32.plain, Json.codes_uInt32.plain],
        by simp [ofTagged, Record.ofJson_obj, Json.codes_string.decodes, Json.codes_int32.decodes,
          Json.codes_uInt32.decodes]⟩

theorem ScheduledAction.codes : Json.Codes 2 ScheduledAction.toJson ScheduledAction.ofJson :=
  Json.Codes.record (by decide) fun s =>
    ⟨_, rfl, rfl, by simp [PlayerGroup.codes.plain, GameAction.codes.plain],
      by simp [PlayerGroup.codes.decodes, GameAction.codes.decodes]⟩

theorem Draft.codes : Json.Codes 7 Draft.toJson Draft.ofJson :=
  Json.Codes.record (by decide) fun d =>
    ⟨_, rfl, rfl,
      by simp [Rule.codes.list.plain, CardType.codes.list.plain, CardDesign.codes.list.plain,
        PlayerAttribute.codes.list.plain, ZoneLayout.codes.list.plain,
        ScheduledAction.codes.list.plain],
      by simp [Rule.codes.list.decodes, CardType.codes.list.decodes,
        CardDesign.codes.list.decodes, PlayerAttribute.codes.list.decodes,
        ZoneLayout.codes.list.decodes, ScheduledAction.codes.list.decodes]⟩

theorem Json.codes_uInt64_option :
    Json.Codes 0 (.ofOption .ofUInt64) (Json.decodeNullable Json.decodeUInt64) :=
  codes_uInt64.nullable fun n => by simp [ofUInt64]

theorem Config.codes : Json.Codes 1 Config.toJson Config.ofJson :=
  Json.Codes.record (by decide) fun c =>
    ⟨_, rfl, rfl,
      by simp [fields, Json.codes_uInt32.plain, Json.codes_uInt64.plain,
        Json.codes_uInt64_option.plain, Json.codes_string_option.plain],
      by simp [fields, Json.codes_uInt32.decodes, Json.codes_uInt64.decodes,
        Json.codes_uInt64_option.decodes, Json.codes_string.decodes,
        Json.codes_string_option.decodes]⟩

/-! ## Requests and messages -/

theorem LiveCardView.codes : Json.Codes 2 LiveCardView.toJson LiveCardView.ofJson :=
  Json.Codes.record (by decide) fun v =>
    ⟨_, rfl, rfl,
      by simp [LiveId.codes.plain, CardId.codes.plain, PlayerId.codes.plain,
        Json.codes_uInt32.plain, Attributes.codes.plain],
      by simp [LiveId.codes.decodes, CardId.codes.decodes, PlayerId.codes.decodes,
        Json.codes_bool.decodes, Json.codes_uInt32.decodes, Attributes.codes.decodes]⟩

theorem ZoneView.codes : Json.Codes 4 ZoneView.toJson ZoneView.ofJson :=
  have hcards := CardId.codes.list.nullable fun _ => by simp [Json.ofList]
  Json.Codes.record (by decide) fun v =>
    ⟨_, rfl, rfl, by simp [Json.codes_uInt64.plain, hcards.plain, LiveCardView.codes.list.plain],
      by simp [Record.get?_cons, Json.codes_string.decodes, Json.codes_uInt64.decodes, hcards.decodes,
        LiveCardView.codes.list.decodes]⟩

theorem PlayerView.codes : Json.Codes 6 PlayerView.toJson PlayerView.ofJson :=
  Json.Codes.record (by decide) fun v =>
    ⟨_, rfl, rfl,
      by simp [PlayerId.codes.plain, Attributes.codes.plain, ZoneView.codes.list.plain],
      by simp [PlayerId.codes.decodes, Json.codes_string.decodes, Json.codes_bool.decodes,
        Attributes.codes.decodes, ZoneView.codes.list.decodes]⟩

theorem PlayerId.codes_option :
    Json.Codes 0 (.ofOption PlayerId.toJson) (Json.decodeNullable PlayerId.ofJson) :=
  codes.nullable fun _ => by simp [toJson, Json.ofUInt8]

theorem Snapshot.codes : Json.Codes 8 Snapshot.toJson Snapshot.ofJson :=
  Json.Codes.record (by decide) fun s =>
    ⟨_, rfl, rfl,
      by simp [Json.codes_uInt32.plain, PlayerId.codes_option.plain, PlayerView.codes.list.plain],
      by simp [Json.codes_uInt32.decodes, PlayerId.codes_option.decodes,
        PlayerView.codes.list.decodes]⟩

theorem TargetKind.codes (reading : Reading) :
    Json.Codes 0 TargetKind.toJson (TargetKind.ofJson reading) :=
  Json.codes_name reading fun kind => by cases kind <;> rfl

theorem TargetChoice.codes : Json.Codes 1 TargetChoice.toJson TargetChoice.ofJson where
  plain choice more hmore := by
    cases choice with
    | player id => exact ⟨by omega, PlayerId.codes.plain id (Nat.zero_le _), trivial⟩
    | card id => exact ⟨by omega, LiveId.codes.plain id (Nat.zero_le _), trivial⟩
  decodes choice := by
    cases choice with
    | player id => exact congrArg (Except.map TargetChoice.player) (PlayerId.codes.decodes id)
    | card id => exact congrArg (Except.map TargetChoice.card) (LiveId.codes.decodes id)

theorem Intent.codes : Json.Codes 2 Intent.toJson Intent.ofJson :=
  Json.Codes.tagged .direct [] fun intent => by
    cases intent <;>
      exact ⟨_, _, rfl, by simp,
        by simp [CardId.codes.plain, CardId.codes.list.plain, Json.codes_uInt32.plain,
          TargetChoice.codes.plain],
        by simp [ofTagged, Record.ofJson_obj, CardId.codes.decodes, CardId.codes.list.decodes,
          Json.codes_string.decodes, Json.codes_uInt32.decodes, TargetChoice.codes.decodes]⟩

theorem Message.codes : Json.Codes 9 Message.toJson Message.ofJson :=
  Json.Codes.tagged .direct [] fun message => by
    cases message <;>
      exact ⟨_, _, rfl, by simp,
        by simp [PlayerId.codes.plain, CardId.codes.plain, LiveId.codes.plain, NetHandle.codes.plain,
          (TargetKind.codes .replayed).plain, Json.codes_uInt32.plain, Json.codes_uInt64.plain,
          Snapshot.codes.plain, PlayerId.codes_option.plain],
        by simp [ofTagged, Record.ofJson_obj, PlayerId.codes.decodes, CardId.codes.decodes,
          LiveId.codes.decodes, NetHandle.codes.decodes, (TargetKind.codes _).decodes,
          Json.codes_string.decodes, Json.codes_uInt32.decodes, Json.codes_uInt64.decodes,
          Snapshot.codes.decodes, PlayerId.codes_option.decodes]⟩

/-! ## Texts -/

namespace Json

/-- What is written as text is read back, and so is what was read from any text. -/
structure RoundTrips {α : Type} (encode : α → Json) (decode : Decoder α) : Prop where
  written : ∀ a, decodeText decode (encode a).toText = .ok a
  reread : ∀ text a, decodeText decode text = .ok a → decodeText decode (encode a).toText = .ok a

/-- Shallow values are read back from their texts. -/
theorem Codes.roundTrips {α : Type} {room : Nat} {encode : α → Json} {decode : Decoder α}
    (h : Codes room encode decode) (hroom : room ≤ depthLimit) : RoundTrips encode decode := by
  have hwritten : ∀ a, decodeText decode (encode a).toText = .ok a := by
    intro a
    rw [decodeText, ofText?_toText (h.plain a hroom)]
    exact h.decodes a
  exact ⟨hwritten, fun _ a _ => hwritten a⟩

end Json

/-- **Catalogs, settings, requests and messages are read back from what is written for them**, whatever
text they came from: unknown fields are skipped, missing ones have their defaults, and a way into or out
of a zone may go by another name. -/
theorem documents_round_trip :
    Json.RoundTrips Draft.toJson Draft.ofJson ∧
    Json.RoundTrips Config.toJson Config.ofJson ∧
    Json.RoundTrips Intent.toJson Intent.ofJson ∧
    Json.RoundTrips Message.toJson Message.ofJson ∧
    (∀ (names : List String) (name : String) (j : Json) (before after : List (String × Json)),
      name ∉ names →
      Record.ofJson names (.obj (before ++ (name, j) :: after)) =
        Record.ofJson names (.obj (before ++ after))) ∧
    Draft.ofJson (.obj []) = .ok {} ∧ Config.ofJson (.obj []) = .ok {} ∧
    (∀ reading, Direction.ofJson reading (.str "Enter") = .ok .increase ∧
      Direction.ofJson reading (.str "Leave") = .ok .decrease) := by
  refine ⟨?draft, ?config, ?intent, ?message, ?unknown, rfl, rfl, fun _ => ⟨rfl, rfl⟩⟩
  case draft => exact Draft.codes.roundTrips (by decide)
  case config => exact Config.codes.roundTrips (by decide)
  case intent => exact Intent.codes.roundTrips (by decide)
  case message => exact Message.codes.roundTrips (by decide)
  case unknown =>
    intro names name j before after h
    exact Record.ofJson_unknown h j before after

/-- A catalog as somebody might write it: most sections and fields are left out, one field is unknown,
and the card listens for another way in. -/
def looseText : String :=
  "\x7b \"card_types\": [\x7b\"name\": \"Elf\", \"age\": 0.5, \"effects\": [\x7b\"definition\": \"Hit\",
    \"trigger\": \x7b\"type\": \"CardZoneTransition\", \"direction\": \"Enter\",
      \"zone\": \"Board\"\x7d\x7d]\x7d] \x7d"

def looseDraft : Draft where
  cardTypes :=
    [{ name := "Elf"
       effects := [{ definition := "Hit", trigger := .cardZoneTransition .enter "Board" }] }]

theorem looseDraft_round_trip :
    Json.decodeText Draft.ofJson looseText = .ok looseDraft ∧
    Json.decodeText Draft.ofJson looseDraft.toJson.toText = .ok looseDraft := by
  have hread : Json.decodeText Draft.ofJson looseText = .ok looseDraft := by decide +kernel
  exact ⟨hread, documents_round_trip.1.reread looseText looseDraft hread⟩

end CardArena
