import KotlinCompile.Plugin.Option
import KotlinCompile.Proofs.Text.Cut

/-! The text of an option for a compiler plugin. It is read in three cuts, each at the first mark of
its kind, and the option comes back from it if neither the id nor the key has such a mark in it. Of
the value nothing is asked. -/
namespace KotlinCompile

namespace Kapt.Key

theorem ofName_name (key : Key) : ofName? key.name = some key := by
  cases key <;> rfl

theorem ofName_eq_none {name : String} : ofName? name = none ↔ ¬ ∃ key : Key, key.name = name := by
  constructor
  · rintro missing ⟨key, rfl⟩
    rw [ofName_name] at missing
    cases missing
  · intro unknown
    rw [ofName?, List.find?_eq_none]
    intro key _ same
    exact unknown ⟨key, eq_of_beq same⟩

theorem name_plain (key : Key) :
    key.name ≠ "" ∧ ':' ∉ key.name.toList ∧ '=' ∉ key.name.toList := by
  cases key <;> decide

end Kapt.Key

theorem Kapt.pluginId_plain : pluginId ≠ "" ∧ ':' ∉ pluginId.toList := by
  decide

namespace PluginOption

/-- The id and the key end where a reader sees them end, and kapt is told only what it knows. -/
structure Readable (option : PluginOption) : Prop where
  pluginId_spelled : option.pluginId ≠ ""
  pluginId_plain : ':' ∉ option.pluginId.toList
  key_spelled : option.key ≠ ""
  key_plain : ':' ∉ option.key.toList ∧ '=' ∉ option.key.toList
  key_known : option.pluginId = Kapt.pluginId → ∃ key : Kapt.Key, key.name = option.key

theorem fault_eq_none {option : PluginOption} : option.fault? = none ↔ option.Readable := by
  unfold fault?
  split
  · next idFault =>
    refine ⟨nofun, fun readable => ?_⟩
    rcases idFault with empty | marked
    · exact absurd empty readable.pluginId_spelled
    · exact absurd marked readable.pluginId_plain
  · next idSound =>
    split
    · next keyFault =>
      refine ⟨nofun, fun readable => ?_⟩
      rcases keyFault with empty | equals | colon
      · exact absurd empty readable.key_spelled
      · exact absurd equals readable.key_plain.2
      · exact absurd colon readable.key_plain.1
    · next keySound =>
      rw [not_or] at idSound
      rw [not_or, not_or] at keySound
      split
      · next unknown =>
        refine ⟨nofun, fun readable => ?_⟩
        exact absurd (readable.key_known unknown.1) (Kapt.Key.ofName_eq_none.mp unknown.2)
      · next known =>
        refine ⟨fun _ => ⟨idSound.1, idSound.2, keySound.1, ⟨keySound.2.2, keySound.2.1⟩, ?_⟩,
          fun _ => rfl⟩
        intro kapt
        exact Classical.not_not.mp fun missing =>
          known ⟨kapt, Kapt.Key.ofName_eq_none.mpr missing⟩

theorem checked_eq_ok {option other : PluginOption} :
    option.checked = .ok other ↔ other = option ∧ option.Readable := by
  rw [← fault_eq_none, checked]
  cases option.fault? with
  | some fault => exact ⟨nofun, nofun⟩
  | none => simp [eq_comm]

theorem toList_text (option : PluginOption) :
    option.text.toList = "plugin:".toList ++
      (option.pluginId.toList ++ ':' :: (option.key.toList ++ '=' :: option.value.toList)) := by
  simp [text]

theorem text_of_cuts {raw : String} {pluginId key value : List Char}
    (whole : raw.toList = "plugin:".toList ++ (pluginId ++ ':' :: (key ++ '=' :: value))) :
    text ⟨String.ofList pluginId, String.ofList key, String.ofList value⟩ = raw := by
  rw [← String.toList_inj, toList_text, whole]
  simp only [String.toList_ofList]

/-- A text is read as the option whose text it is, if the option can be told from it. -/
theorem parse_eq_ok {raw : String} {option : PluginOption} :
    parse raw = .ok option ↔ option.text = raw ∧ option.Readable := by
  constructor
  · intro parsed
    unfold parse at parsed
    split at parsed
    · cases parsed
    · next body start =>
      split at parsed
      · cases parsed
      · next pluginId assignment idCut =>
        split at parsed
        · cases parsed
        · next key value keyCut =>
          obtain ⟨rfl, readable⟩ := checked_eq_ok.mp parsed
          refine ⟨text_of_cuts ?_, readable⟩
          rw [Text.behind_eq_some.mp start, (Text.cutAt_eq_some.mp idCut).2,
            (Text.cutAt_eq_some.mp keyCut).2]
  · rintro ⟨rfl, readable⟩
    have start := Text.behind_eq_some.mpr option.toList_text
    simp only [parse, start, Text.cutAt_append readable.pluginId_plain,
      Text.cutAt_append readable.key_plain.2, String.ofList_toList]
    exact checked_eq_ok.mpr ⟨rfl, readable⟩

-- Kapt's options are not checked; its id and its keys are such that a check would pass.
theorem kapt_readable (key : Kapt.Key) (value : String) : (kapt key value).Readable where
  pluginId_spelled := Kapt.pluginId_plain.1
  pluginId_plain := Kapt.pluginId_plain.2
  key_spelled := key.name_plain.1
  key_plain := key.name_plain.2
  key_known _ := ⟨key, rfl⟩

/-- Options that passed their check, and those of kapt, which need none. There are no others. -/
inductive Made : PluginOption → Prop where
  | checked {option made : PluginOption} (passed : option.checked = .ok made) : Made made
  | kapt (key : Kapt.Key) (value : String) : Made (kapt key value)

theorem Made.readable {option : PluginOption} (made : option.Made) : option.Readable := by
  cases made with
  | checked passed =>
    obtain ⟨rfl, readable⟩ := checked_eq_ok.mp passed
    exact readable
  | kapt key value => exact kapt_readable key value

theorem made_of_parse {raw : String} {option : PluginOption} (parsed : parse raw = .ok option) :
    option.Made :=
  .checked (checked_eq_ok.mpr ⟨rfl, (parse_eq_ok.mp parsed).2⟩)

-- Options are told apart by their texts, since each of them is what its text is read as.
theorem texts_injective {options others : List PluginOption} (made : ∀ option ∈ options, option.Made)
    (alike : ∀ option ∈ others, option.Made)
    (same : options.map (·.text) = others.map (·.text)) : options = others := by
  have back {options : List PluginOption} (made : ∀ option ∈ options, option.Made) :
      (options.map (·.text)).map (fun text => (parse text).toOption) = options.map some := by
    rw [List.map_map]
    refine List.map_congr_left fun option member => ?_
    simp only [Function.comp, parse_eq_ok.mpr ⟨rfl, (made option member).readable⟩]
    rfl
  have equal : options.map some = others.map some := by
    rw [← back made, same, back alike]
  exact List.map_inj_right (fun _ _ => Option.some.inj) |>.mp equal

/-- Reading and writing undo each other: what is read is written back as it was, an option that was
checked or made for kapt is read back, and the texts that can be read are those of the form. -/
theorem parse_text_inverse :
    (∀ raw option, parse raw = .ok option → option.text = raw) ∧
    (∀ pluginId key value option, checked ⟨pluginId, key, value⟩ = .ok option →
      parse option.text = .ok option) ∧
    (∀ key value, parse (kapt key value).text = .ok (kapt key value)) ∧
    (∀ raw pluginId key value, parse raw = .ok ⟨pluginId, key, value⟩ ↔
      raw = "plugin:" ++ pluginId ++ ":" ++ key ++ "=" ++ value ∧
      pluginId ≠ "" ∧ ':' ∉ pluginId.toList ∧
      key ≠ "" ∧ ':' ∉ key.toList ∧ '=' ∉ key.toList ∧
      (pluginId = Kapt.pluginId → ∃ known : Kapt.Key, known.name = key)) := by
  refine ⟨fun raw option parsed => (parse_eq_ok.mp parsed).1, ?_, ?_, ?_⟩
  · intro pluginId key value option passed
    obtain ⟨rfl, readable⟩ := checked_eq_ok.mp passed
    exact parse_eq_ok.mpr ⟨rfl, readable⟩
  · exact fun key value => parse_eq_ok.mpr ⟨rfl, kapt_readable key value⟩
  · intro raw pluginId key value
    rw [parse_eq_ok]
    constructor
    · rintro ⟨rfl, readable⟩
      exact ⟨rfl, readable.pluginId_spelled, readable.pluginId_plain, readable.key_spelled,
        readable.key_plain.1, readable.key_plain.2, readable.key_known⟩
    · rintro ⟨rfl, idSpelled, idPlain, keySpelled, colon, equals, known⟩
      exact ⟨rfl, idSpelled, idPlain, keySpelled, ⟨colon, equals⟩, known⟩

-- The value may hold any of the marks again.
example : (parse "plugin:p:key=a:b=c==").toOption = some ⟨"p", "key", "a:b=c=="⟩ := by
  decide +kernel

end PluginOption
end KotlinCompile
