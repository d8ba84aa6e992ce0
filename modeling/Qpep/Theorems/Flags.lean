import Qpep.Shared.QuicConfig

/-!
# The command line

The process starts exactly on the command lines that are a row of options, each written in one of the ways there are; every
option sets its own field and no other, and the last one wins (`init_iff`). A word that is no flag ends the options: what is
behind it is not read, so the value of a boolean option cannot stand in a word of its own (`init_stray_value`).
-/

namespace Qpep

open Flags Strconv

namespace Shared

variable {F : Type}

/-- One option of the command line, with its value. -/
inductive Setting (F : Type) where
  | acks (n : Int)
  | decimate (n : Int)
  | congestion (n : Int)
  | multistream (b : Bool)
  | ackDelay (n : Int)
  | varAckDelay (x : F)
  | minBeforeDecimation (n : Int)
  | client (b : Bool)
  | gateway (ip : List Char)

namespace Setting

/-- The flag of an option. -/
def flag (fl : Floats F) : Setting F → Flag (QuicConfig F)
  | .acks _ => ackElicitingFlag
  | .decimate _ => ackDecimationFlag
  | .congestion _ => congestionWindowFlag
  | .multistream _ => multiStreamFlag
  | .ackDelay _ => maxAckDelayFlag
  | .varAckDelay _ => varAckDelayFlag fl
  | .minBeforeDecimation _ => minReceivedBeforeAckDecimationFlag
  | .client _ => clientFlag
  | .gateway _ => gatewayFlag

/-- The text stands for the value of the option. -/
def Reads (fl : Floats F) (text : List Char) : Setting F → Prop
  | .acks n | .decimate n | .congestion n | .ackDelay n | .minBeforeDecimation n => parseInt text = some n
  | .multistream b | .client b => parseBool text = some b
  | .varAckDelay x => fl.parseFloat text = some x
  | .gateway ip => text = ip

/-- The option on the configuration. -/
def apply : Setting F → QuicConfig F → QuicConfig F
  | .acks n, cfg => { cfg with ackElicitingPacketsBeforeAck := n }
  | .decimate n, cfg => { cfg with ackDecimationDenominator := n }
  | .congestion n, cfg => { cfg with initialCongestionWindowPackets := n }
  | .multistream b, cfg => { cfg with multiStream := b }
  | .ackDelay n, cfg => { cfg with maxAckDelay := n }
  | .varAckDelay x, cfg => { cfg with varAckDelay := x }
  | .minBeforeDecimation n, cfg => { cfg with minReceivedBeforeAckDecimation := n }
  | .client b, cfg => { cfg with clientFlag := b }
  | .gateway ip, cfg => { cfg with gatewayIP := ip }

/-! What an option says of each field, if anything. -/

def acks? : Setting F → Option Int
  | .acks n => some n
  | _ => none

def decimate? : Setting F → Option Int
  | .decimate n => some n
  | _ => none

def congestion? : Setting F → Option Int
  | .congestion n => some n
  | _ => none

def multistream? : Setting F → Option Bool
  | .multistream b => some b
  | _ => none

def varAckDelay? : Setting F → Option F
  | .varAckDelay x => some x
  | _ => none

def ackDelay? : Setting F → Option Int
  | .ackDelay n => some n
  | _ => none

def minBeforeDecimation? : Setting F → Option Int
  | .minBeforeDecimation n => some n
  | _ => none

def client? : Setting F → Option Bool
  | .client b => some b
  | _ => none

def gateway? : Setting F → Option (List Char)
  | .gateway ip => some ip
  | _ => none

end Setting

/-- An option as it is written: the text of its value, two dashes or one, the value behind `=` or not. -/
structure Spelled (F : Type) where
  setting : Setting F
  text : List Char
  twoDashes : Bool
  joined : Bool

namespace Spelled

/-- The option as a setting of its flag. -/
def written (fl : Floats F) (s : Spelled F) : Written (QuicConfig F) := ⟨s.setting.flag fl, s.text, s.twoDashes, s.joined⟩

/-- The words of an option. -/
def words (fl : Floats F) (s : Spelled F) : List (List Char) := (s.written fl).words

/-- The text stands for the value, and a boolean flag without `=` for `true`. -/
structure Valid (fl : Floats F) (s : Spelled F) : Prop where
  reads : s.setting.Reads fl s.text
  bare : (s.setting.flag fl).isBool = true → s.joined = false → s.text = "true".toList

end Spelled

/-- The words of a row of options. -/
def render (fl : Floats F) (ss : List (Spelled F)) : List (List Char) := ss.flatMap (Spelled.words fl)

theorem flags_proper (fl : Floats F) : AllProper (flags fl) := by
  intro f hf
  simp only [flags, List.mem_cons, List.not_mem_nil, or_false] at hf
  rcases hf with rfl | rfl | rfl | rfl | rfl | rfl | rfl | rfl | rfl <;> exact ⟨_, _, rfl, by decide, by decide, by decide⟩

/-- An option is one of its flag. -/
theorem written_of {fl : Floats F} {s : Spelled F} (hs : s.Valid fl) : (s.written fl).Of (flags fl) := by
  refine ⟨?_, hs.bare⟩
  obtain ⟨setting, text, two, joined⟩ := s
  cases setting <;> rfl

/-- A flag reads the value of its option. -/
theorem set_text {fl : Floats F} {s : Setting F} {text : List Char} (hs : s.Reads fl text) (cfg : QuicConfig F) :
    (s.flag fl).set text cfg = some (s.apply cfg) := by
  cases s with
  | gateway ip =>
    rw [show text = ip from hs]
    rfl
  | _ => exact congrArg (Option.map _) hs

/-- What a flag makes of a text is one of its options. -/
theorem setting_of_set {fl : Floats F} {f : Flag (QuicConfig F)} (hf : f ∈ flags fl) {text : List Char} {cfg cfg' : QuicConfig F}
    (h : f.set text cfg = some cfg') : ∃ s : Setting F, s.flag fl = f ∧ s.Reads fl text ∧ cfg' = s.apply cfg := by
  simp only [flags, List.mem_cons, List.not_mem_nil, or_false] at hf
  rcases hf with rfl | rfl | rfl | rfl | rfl | rfl | rfl | rfl | rfl
  case inr.inr.inr.inr.inr.inr.inr.inr => exact ⟨.gateway text, rfl, rfl, (Option.some.inj h).symm⟩
  all_goals obtain ⟨v, hv, rfl⟩ := Option.map_eq_some_iff.mp h
  · exact ⟨.acks v, rfl, hv, rfl⟩
  · exact ⟨.decimate v, rfl, hv, rfl⟩
  · exact ⟨.congestion v, rfl, hv, rfl⟩
  · exact ⟨.multistream v, rfl, hv, rfl⟩
  · exact ⟨.ackDelay v, rfl, hv, rfl⟩
  · exact ⟨.varAckDelay v, rfl, hv, rfl⟩
  · exact ⟨.minBeforeDecimation v, rfl, hv, rfl⟩
  · exact ⟨.client v, rfl, hv, rfl⟩

/-- Rows of settings that are accepted are rows of options. -/
theorem setAll_iff {fl : Floats F} {ws : List (Written (QuicConfig F))} {cfg cfg' : QuicConfig F} :
    (∀ w ∈ ws, w.Of (flags fl)) ∧ setAll ws cfg = some cfg' ↔
      ∃ ss : List (Spelled F), (∀ s ∈ ss, s.Valid fl) ∧ ss.map (Spelled.written fl) = ws ∧
        cfg' = ss.foldl (fun cfg s => s.setting.apply cfg) cfg := by
  refine ⟨fun h => ?_, fun h => ?_⟩
  · induction ws generalizing cfg with
    | nil => exact ⟨[], by simp, rfl, (Option.some.inj h.2).symm⟩
    | cons w ws ih =>
      obtain ⟨hof, hset⟩ := h
      obtain ⟨⟨hlookup, hbare⟩, hrest⟩ := List.forall_mem_cons.mp hof
      obtain ⟨cfg₁, hcfg₁, htail⟩ := Option.bind_eq_some_iff.mp hset
      obtain ⟨s, hflag, hreads, rfl⟩ := setting_of_set (mem_of_lookup hlookup).1 hcfg₁
      obtain ⟨ss, hss, hmap, hcfg'⟩ := ih ⟨hrest, htail⟩
      refine ⟨⟨s, w.value, w.twoDashes, w.joined⟩ :: ss, List.forall_mem_cons.mpr ⟨⟨hreads, ?_⟩, hss⟩, ?_, hcfg'⟩
      · rw [hflag]
        exact hbare
      · rw [List.map_cons, hmap, Spelled.written, hflag]
  · obtain ⟨ss, hss, rfl, rfl⟩ := h
    induction ss generalizing cfg with
    | nil => exact ⟨by simp, rfl⟩
    | cons s ss ih =>
      obtain ⟨hs, hrest⟩ := List.forall_mem_cons.mp hss
      obtain ⟨hof, hall⟩ := ih hrest
      refine ⟨List.forall_mem_cons.mpr ⟨written_of hs, hof⟩, ?_⟩
      have hset : (s.written fl).flag.set (s.written fl).value cfg = some (s.setting.apply cfg) := set_text hs.reads cfg
      rw [List.map_cons, setAll, hset, Option.bind_some, hall, List.foldl_cons]

/-! ## The last option wins -/

/-- The value that the last option of a kind gives, or what there was before. -/
def lastOf {α : Type} (value : Setting F → Option α) (ss : List (Spelled F)) (before : α) : α :=
  ((ss.filterMap fun s => value s.setting).getLast?).getD before

/-- A field that every option sets to its own value, or leaves, has the value of the last one. -/
theorem foldl_field {α : Type} (field : QuicConfig F → α) (value : Setting F → Option α)
    (hfield : ∀ s cfg, field (Setting.apply s cfg) = (value s).getD (field cfg)) (ss : List (Spelled F)) (cfg : QuicConfig F) :
    field (ss.foldl (fun cfg s => s.setting.apply cfg) cfg) = lastOf value ss (field cfg) := by
  induction ss generalizing cfg with
  | nil => rfl
  | cons s ss ih =>
    rw [List.foldl_cons, ih, hfield]
    simp only [lastOf, List.filterMap_cons]
    cases value s.setting with
    | none => rfl
    | some v =>
      cases hlast : ss.filterMap fun s => value s.setting with
      | nil => rfl
      | cons x xs => simp [List.getLast?_cons]

/-- The configuration of a row of options: each field has the value of the last option of its kind, or its default. -/
def configuration (fl : Floats F) (ss : List (Spelled F)) : QuicConfig F where
  ackElicitingPacketsBeforeAck := lastOf Setting.acks? ss 10
  ackDecimationDenominator := lastOf Setting.decimate? ss 4
  initialCongestionWindowPackets := lastOf Setting.congestion? ss 4
  multiStream := lastOf Setting.multistream? ss true
  varAckDelay := lastOf Setting.varAckDelay? ss fl.quarter
  maxAckDelay := lastOf Setting.ackDelay? ss 25
  minReceivedBeforeAckDecimation := lastOf Setting.minBeforeDecimation? ss 100
  clientFlag := lastOf Setting.client? ss false
  gatewayIP := lastOf Setting.gateway? ss "198.18.0.254".toList

/-- The fields are set one by one, and the order of the options of different kinds does not matter. -/
theorem foldl_configuration (fl : Floats F) (ss : List (Spelled F)) :
    ss.foldl (fun cfg s => s.setting.apply cfg) (default fl) = configuration fl ss := by
  refine QuicConfig.ext
    (foldl_field QuicConfig.ackElicitingPacketsBeforeAck Setting.acks? ?_ ss _)
    (foldl_field QuicConfig.ackDecimationDenominator Setting.decimate? ?_ ss _)
    (foldl_field QuicConfig.initialCongestionWindowPackets Setting.congestion? ?_ ss _)
    (foldl_field QuicConfig.multiStream Setting.multistream? ?_ ss _)
    (foldl_field QuicConfig.varAckDelay Setting.varAckDelay? ?_ ss _)
    (foldl_field QuicConfig.maxAckDelay Setting.ackDelay? ?_ ss _)
    (foldl_field QuicConfig.minReceivedBeforeAckDecimation Setting.minBeforeDecimation? ?_ ss _)
    (foldl_field QuicConfig.clientFlag Setting.client? ?_ ss _)
    (foldl_field QuicConfig.gatewayIP Setting.gateway? ?_ ss _)
  all_goals
    intro s cfg
    cases s <;> rfl

theorem render_eq (fl : Floats F) (ss : List (Spelled F)) :
    render fl ss = (ss.map (Spelled.written fl)).flatMap Written.words := by
  rw [render, List.flatMap_map]
  rfl

/-- The configuration that a row of options makes, whatever is behind the end of the flags. -/
theorem init_render {fl : Floats F} {ss : List (Spelled F)} (hss : ∀ s ∈ ss, s.Valid fl) {tail rest : List (List Char)}
    (hends : Ends tail rest) : init fl (render fl ss ++ tail) = .ok (configuration fl ss) := by
  obtain ⟨hof, hset⟩ := setAll_iff.mpr ⟨ss, hss, rfl, rfl⟩
  have hparse : parse (flags fl) (default fl) (render fl ss ++ tail) = .ok (configuration fl ss, rest) := by
    refine (parse_iff (flags_proper fl)).mpr ⟨_, tail, hof, ?_, ?_, hends⟩
    · rw [render_eq]
    · rw [hset, foldl_configuration]
  rw [init, hparse]
  rfl

/-- The process starts exactly if its command line is a row of options and what ends the flags. Its configuration is that of the
options, and what is behind the end is not read. -/
theorem init_iff {fl : Floats F} {args : List (List Char)} {cfg : QuicConfig F} :
    init fl args = .ok cfg ↔
      ∃ ss tail rest, (∀ s ∈ ss, s.Valid fl) ∧ args = render fl ss ++ tail ∧ Ends tail rest ∧ cfg = configuration fl ss := by
  refine ⟨fun h => ?_, ?_⟩
  · unfold init at h
    cases hparse : parse (flags fl) (default fl) args with
    | error e =>
      rw [hparse] at h
      cases h
    | ok r =>
      rw [hparse] at h
      cases h
      obtain ⟨ws, tail, hof, hargs, hset, hends⟩ := (parse_iff (flags_proper fl)).mp hparse
      obtain ⟨ss, hss, rfl, hcfg⟩ := setAll_iff.mp ⟨hof, hset⟩
      refine ⟨ss, tail, r.2, hss, ?_, hends, ?_⟩
      · rw [render_eq, hargs]
      · rw [hcfg, foldl_configuration]
  · rintro ⟨ss, tail, rest, hss, rfl, hends, rfl⟩
    exact init_render hss hends

/-- The value of a boolean option cannot stand in a word of its own: it is not read, the option is `true`, and no option
behind it is read either. -/
theorem init_stray_value {fl : Floats F} {ss : List (Spelled F)} {s : Spelled F} (hss : ∀ s' ∈ ss ++ [s], s'.Valid fl)
    (hs : (s.setting.flag fl).isBool = true) (hj : s.joined = false) {value : List Char} (hv : wordOf value = .plain)
    (args : List (List Char)) :
    init fl (render fl ss ++ s.words fl ++ value :: args) = .ok (configuration fl (ss ++ [s])) ∧ s.text = "true".toList := by
  have hwords : render fl ss ++ s.words fl = render fl (ss ++ [s]) := by simp [render]
  rw [hwords]
  exact ⟨init_render hss (.plain value args hv), (hss s (by simp)).bare hs hj⟩

end Shared

end Qpep
