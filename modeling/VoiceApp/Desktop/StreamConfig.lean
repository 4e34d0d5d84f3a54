import Mathlib.Data.Nat.Notation

/-! # The stream configuration

A device reports configurations, each with one format and a range of rates. The choice goes
through a list of priorities, and for each of them through the configurations in the order
of the device. The streams are opened by the name of the format, and know three names.
-/
namespace VoiceApp.Desktop

inductive SampleFormat
  | i8 | i16 | i24 | i32 | i64
  | u8 | u16 | u24 | u32 | u64
  | f32 | f64
  | dsdU8 | dsdU16 | dsdU32
  deriving DecidableEq

def SampleFormat.toString : SampleFormat → String
  | .i8 => "i8" | .i16 => "i16" | .i24 => "i24" | .i32 => "i32" | .i64 => "i64"
  | .u8 => "u8" | .u16 => "u16" | .u24 => "u24" | .u32 => "u32" | .u64 => "u64"
  | .f32 => "f32" | .f64 => "f64"
  | .dsdU8 => "dsdu8" | .dsdU16 => "dsdu16" | .dsdU32 => "dsdu32"

structure SupportedStreamConfigRange where
  channels : UInt16
  minSampleRate : UInt32
  maxSampleRate : UInt32
  sampleFormat : SampleFormat
  min_le_max : minSampleRate ≤ maxSampleRate

/-- The rate, the format and the number of channels. -/
abbrev StreamChoice := UInt32 × SampleFormat × UInt16

def targetSampleRate : UInt32 := 48000

/-- Rates and formats in the order of preference; without a rate, any will do. -/
def priorities : List (Option UInt32 × SampleFormat) :=
  [(some targetSampleRate,.f32),(some targetSampleRate,.i16),(some targetSampleRate,.u16),(none,.f32)]

namespace SupportedStreamConfigRange

/-- The body of the inner loop. -/
def tryPriority (targetRate : Option UInt32) (format : SampleFormat) (config : SupportedStreamConfigRange) :
    Option StreamChoice :=
  if config.sampleFormat = format then
    match targetRate with
    | some rate =>
      if config.minSampleRate ≤ rate ∧ config.maxSampleRate ≥ rate then
        some (rate,format,config.channels)
      else none
    | none => some (config.maxSampleRate,format,config.channels)
  else none

end SupportedStreamConfigRange

/-- The two loops. -/
def preferred (configs : List SupportedStreamConfigRange) : Option StreamChoice :=
  priorities.findSome? fun (targetRate,format) =>
    configs.findSome? (SupportedStreamConfigRange.tryPriority targetRate format)

def findBestStreamConfig (configs : List SupportedStreamConfigRange) : Except String StreamChoice :=
  match configs with
  | [] => .error "No configurations found"
  | firstConfig :: _ =>
    match preferred configs with
    | some choice => .ok choice
    -- first available config
    | none => .ok (firstConfig.maxSampleRate,firstConfig.sampleFormat,firstConfig.channels)

/-- How the samples of a stream are handled, by the name of their format. -/
def streamFormat (message : String) (sampleFormat : String) : Except String SampleFormat :=
  match sampleFormat with
  | "f32" => .ok .f32
  | "i16" => .ok .i16
  | "u16" => .ok .u16
  | other => .error (message ++ other.quote)

/-- The match of `create_input_stream`. -/
def inputStreamFormat : String → Except String SampleFormat := streamFormat "Unsupported sample format: "

/-- The match of `create_output_stream`. -/
def outputStreamFormat : String → Except String SampleFormat := streamFormat "Unsupported output format: "

/-- Both streams can be opened with the format. -/
def SampleFormat.Accepted (format : SampleFormat) : Prop :=
  inputStreamFormat format.toString = .ok format ∧ outputStreamFormat format.toString = .ok format

theorem accepted_iff (format : SampleFormat) :
    format.Accepted ↔ format = .f32 ∨ format = .i16 ∨ format = .u16 := by
  constructor
  · rintro ⟨hinput,_⟩
    cases format with
    | f32 => exact .inl rfl
    | i16 => exact .inr (.inl rfl)
    | u16 => exact .inr (.inr rfl)
    | _ => simp [inputStreamFormat,streamFormat,SampleFormat.toString] at hinput
  · rintro (rfl | rfl | rfl) <;> exact ⟨rfl,rfl⟩

namespace SupportedStreamConfigRange

/-- The configuration allows this rate, format and number of channels. -/
def Admits (config : SupportedStreamConfigRange) (choice : StreamChoice) : Prop :=
  config.minSampleRate ≤ choice.1 ∧ choice.1 ≤ config.maxSampleRate ∧
    config.sampleFormat = choice.2.1 ∧ config.channels = choice.2.2

def AdmitsRate (config : SupportedStreamConfigRange) (rate : UInt32) : Prop :=
  config.minSampleRate ≤ rate ∧ rate ≤ config.maxSampleRate

/-- The documented order: a configuration is on a level if it meets the condition of that
number, counted from 0. -/
def OnLevel (config : SupportedStreamConfigRange) : ℕ → Prop
  | 0 => config.sampleFormat = .f32 ∧ config.AdmitsRate 48000
  | 1 => config.sampleFormat = .i16 ∧ config.AdmitsRate 48000
  | 2 => config.sampleFormat = .u16 ∧ config.AdmitsRate 48000
  | 3 => config.sampleFormat = .f32
  | _ => True

/-- What is chosen of a configuration on a level. -/
def choice (config : SupportedStreamConfigRange) (level : ℕ) : StreamChoice :=
  (if level < 3 then 48000 else config.maxSampleRate,config.sampleFormat,config.channels)

theorem tryPriority_rate (config : SupportedStreamConfigRange) (rate : UInt32) (format : SampleFormat) :
    config.tryPriority (some rate) format = none ∧
        ¬(config.sampleFormat = format ∧ config.AdmitsRate rate) ∨
      config.tryPriority (some rate) format = some (rate,config.sampleFormat,config.channels) ∧
        config.sampleFormat = format ∧ config.AdmitsRate rate := by
  by_cases hformat : config.sampleFormat = format
  · by_cases hrate : config.AdmitsRate rate
    · refine .inr ⟨?_,hformat,hrate⟩
      rw [tryPriority,if_pos hformat,hformat]
      exact if_pos hrate
    · refine .inl ⟨?_,fun h => hrate h.2⟩
      rw [tryPriority,if_pos hformat]
      exact if_neg hrate
  · refine .inl ⟨?_,fun h => hformat h.1⟩
    rw [tryPriority,if_neg hformat]

theorem tryPriority_any (config : SupportedStreamConfigRange) (format : SampleFormat) :
    config.tryPriority none format = none ∧ config.sampleFormat ≠ format ∨
      config.tryPriority none format = some (config.maxSampleRate,config.sampleFormat,config.channels) ∧
        config.sampleFormat = format := by
  by_cases hformat : config.sampleFormat = format
  · refine .inr ⟨?_,hformat⟩
    rw [tryPriority,if_pos hformat,hformat]
  · refine .inl ⟨?_,hformat⟩
    rw [tryPriority,if_neg hformat]

/-- The inner loop takes the first configuration on the level of the priority. -/
theorem tryPriority_level {level : ℕ} {targetRate : Option UInt32} {format : SampleFormat}
    (h : priorities[level]? = some (targetRate,format)) (config : SupportedStreamConfigRange) :
    config.tryPriority targetRate format = none ∧ ¬config.OnLevel level ∨
      config.tryPriority targetRate format = some (config.choice level) ∧ config.OnLevel level := by
  match level with
  | 0 | 1 | 2 =>
    cases h
    exact config.tryPriority_rate _ _
  | 3 =>
    cases h
    exact config.tryPriority_any _
  | _ + 4 => cases h

theorem onLevel_last (config : SupportedStreamConfigRange) : config.OnLevel 4 := trivial

/-- A configuration admits what is chosen of it. -/
theorem admits_choice {config : SupportedStreamConfigRange} {level : ℕ} (h : config.OnLevel level) :
    config.Admits (config.choice level) := by
  match level with
  | 0 | 1 | 2 => exact ⟨h.2.1,h.2.2,rfl,rfl⟩
  | 3 | _ + 4 => exact ⟨config.min_le_max,UInt32.le_refl _,rfl,rfl⟩

/-- The formats of all levels but the last can be opened. -/
theorem accepted_of_onLevel {config : SupportedStreamConfigRange} {level : ℕ} (hlevel : level < 4)
    (h : config.OnLevel level) : config.sampleFormat.Accepted := by
  rw [accepted_iff]
  match level,hlevel with
  | 0,_ => exact .inl h.1
  | 1,_ => exact .inr (.inl h.1)
  | 2,_ => exact .inr (.inr h.1)
  | 3,_ => exact .inl h

end SupportedStreamConfigRange

open SupportedStreamConfigRange

/-- The choice is that of the first configuration on the first level that has one. -/
structure FirstOnLevel (configs : List SupportedStreamConfigRange) (choice : StreamChoice) (level : ℕ)
    (pre : List SupportedStreamConfigRange) (config : SupportedStreamConfigRange)
    (post : List SupportedStreamConfigRange) : Prop where
  split : configs = pre ++ config :: post
  choice_eq : choice = config.choice level
  onLevel : config.OnLevel level
  first : ∀ other ∈ pre, ¬other.OnLevel level
  higher : ∀ above < level, ∀ other ∈ configs, ¬other.OnLevel above

/-- The documented priority order. -/
def FollowsPriorities (configs : List SupportedStreamConfigRange) (choice : StreamChoice) : Prop :=
  ∃ level ≤ 4, ∃ pre config post, FirstOnLevel configs choice level pre config post

/-- A level that the inner loop finds nothing on. -/
theorem no_onLevel {configs : List SupportedStreamConfigRange} {level : ℕ} {targetRate : Option UInt32}
    {format : SampleFormat} (hlevel : priorities[level]? = some (targetRate,format))
    (h : configs.findSome? (tryPriority targetRate format) = none) :
    ∀ config ∈ configs, ¬config.OnLevel level := by
  intro config hmem
  have hnone := List.findSome?_eq_none_iff.mp h config hmem
  rcases tryPriority_level hlevel config with ⟨_,hnot⟩ | ⟨hsome,_⟩
  · exact hnot
  · rw [hnone] at hsome
    cases hsome

/-- What the loops find is chosen on one of the first four levels. -/
theorem preferred_some {configs : List SupportedStreamConfigRange} {choice : StreamChoice}
    (h : preferred configs = some choice) :
    ∃ level < 4, ∃ pre config post, FirstOnLevel configs choice level pre config post := by
  obtain ⟨above,⟨targetRate,format⟩,below,hpriorities,hsome,hnone⟩ := List.findSome?_eq_some_iff.mp h
  obtain ⟨pre,config,post,hsplit,hconfig,hpre⟩ := List.findSome?_eq_some_iff.mp hsome
  have hget : priorities[above.length]? = some (targetRate,format) := by
    rw [hpriorities,List.getElem?_append_right (Nat.le_refl _),Nat.sub_self]
    rfl
  have hfour : above.length < 4 := (List.getElem?_eq_some_iff.mp hget).1
  rcases tryPriority_level hget config with ⟨hno,_⟩ | ⟨hchoice,hlevel⟩
  · rw [hconfig] at hno
    cases hno
  refine ⟨above.length,hfour,pre,config,post,hsplit,?_,hlevel,?_,?_⟩
  · rw [hconfig] at hchoice
    exact Option.some.inj hchoice
  · intro other hmem
    rcases tryPriority_level hget other with ⟨_,hnot⟩ | ⟨hfound,_⟩
    · exact hnot
    · rw [hpre other hmem] at hfound
      cases hfound
  · intro i hi
    have hi' : priorities[i]? = some above[i] := by
      rw [hpriorities,List.getElem?_append_left hi]
      exact List.getElem?_eq_getElem hi
    exact no_onLevel hi' (hnone _ (List.getElem_mem hi))

/-- Where the loops find nothing, no configuration is on the first four levels. -/
theorem preferred_none {configs : List SupportedStreamConfigRange} (h : preferred configs = none) :
    ∀ level < 4, ∀ config ∈ configs, ¬config.OnLevel level := by
  intro level hlevel
  have hget : priorities[level]? = some priorities[level] := List.getElem?_eq_getElem hlevel
  exact no_onLevel hget (List.findSome?_eq_none_iff.mp h _ (List.getElem_mem hlevel))

theorem findBest_follows {configs : List SupportedStreamConfigRange} (h : configs ≠ []) :
    ∃ choice, findBestStreamConfig configs = .ok choice ∧ FollowsPriorities configs choice := by
  obtain _ | ⟨firstConfig,rest⟩ := configs
  · exact absurd rfl h
  cases hfound : preferred (firstConfig :: rest) with
  | some choice =>
    obtain ⟨level,hlevel,hfirst⟩ := preferred_some hfound
    refine ⟨choice,?_,level,Nat.le_of_lt hlevel,hfirst⟩
    dsimp only [findBestStreamConfig]
    rw [hfound]
  | none =>
    refine ⟨firstConfig.choice 4,?_,4,Nat.le_refl 4,[],firstConfig,rest,rfl,rfl,
      firstConfig.onLevel_last,fun _ hmem => absurd hmem List.not_mem_nil,preferred_none hfound⟩
    dsimp only [findBestStreamConfig]
    rw [hfound]
    rfl

/-- A configuration with a format that can be opened, at any rate for `f32` and at the target
rate for the other two. -/
def Openable (config : SupportedStreamConfigRange) : Prop := ∃ level < 4, config.OnLevel level

theorem openable_iff (config : SupportedStreamConfigRange) : Openable config ↔
    config.sampleFormat = .f32 ∨
      (config.sampleFormat = .i16 ∨ config.sampleFormat = .u16) ∧ config.AdmitsRate 48000 := by
  constructor
  · rintro ⟨level,hlevel,h⟩
    match level,hlevel with
    | 0,_ => exact .inl h.1
    | 1,_ => exact .inr ⟨.inl h.1,h.2⟩
    | 2,_ => exact .inr ⟨.inr h.1,h.2⟩
    | 3,_ => exact .inl h
  · rintro (hf32 | ⟨hi16 | hu16,hrate⟩)
    · exact ⟨3,by decide,hf32⟩
    · exact ⟨1,by decide,hi16,hrate⟩
    · exact ⟨2,by decide,hu16,hrate⟩

section Choice
variable {configs pre post : List SupportedStreamConfigRange} {config : SupportedStreamConfigRange}
  {choice : StreamChoice} {level : ℕ}

theorem FirstOnLevel.mem (h : FirstOnLevel configs choice level pre config post) : config ∈ configs := by
  rw [h.split]
  exact List.mem_append_right _ List.mem_cons_self

/-- On the last level the choice is that of the first configuration of all. -/
theorem FirstOnLevel.eq_head (h : FirstOnLevel configs choice 4 pre config post) (hne : configs ≠ []) :
    configs.head hne = config := by
  obtain rfl : pre = [] :=
    List.eq_nil_iff_forall_not_mem.mpr fun other hother => h.first other hother other.onLevel_last
  have hsplit := h.split
  subst hsplit
  rfl

theorem FirstOnLevel.accepted_iff (h : FirstOnLevel configs choice level pre config post)
    (hlevel : level ≤ 4) (hne : configs ≠ []) : choice.2.1.Accepted ↔
      (∃ config ∈ configs, Openable config) ∨ (configs.head hne).sampleFormat.Accepted := by
  have hformat : choice.2.1 = config.sampleFormat := by
    rw [h.choice_eq]
    rfl
  rw [hformat]
  rcases Nat.lt_or_eq_of_le hlevel with hlt | rfl
  · exact ⟨fun _ => .inl ⟨config,h.mem,level,hlt,h.onLevel⟩,fun _ => accepted_of_onLevel hlt h.onLevel⟩
  · rw [h.eq_head hne]
    refine ⟨.inr,?_⟩
    rintro (⟨other,hother,above,habove,hon⟩ | haccepted)
    · exact absurd hon (h.higher above habove other hother)
    · exact haccepted

end Choice

/-- The choice is admitted, follows the priorities, and can be opened exactly if some
configuration has the format `f32`, or `i16` or `u16` at 48 kHz, or the first one has a
format that can be opened. -/
theorem findBest_spec {configs : List SupportedStreamConfigRange} (h : configs ≠ []) :
    ∃ choice, findBestStreamConfig configs = .ok choice ∧
      (∃ config ∈ configs, config.Admits choice) ∧ FollowsPriorities configs choice ∧
      (choice.2.1.Accepted ↔ (∃ config ∈ configs, config.sampleFormat = .f32 ∨
          (config.sampleFormat = .i16 ∨ config.sampleFormat = .u16) ∧ config.AdmitsRate 48000) ∨
        (configs.head h).sampleFormat.Accepted) := by
  obtain ⟨choice,hbest,hfollows⟩ := findBest_follows h
  obtain ⟨level,hlevel,pre,config,post,hfirst⟩ := hfollows
  refine ⟨choice,hbest,⟨config,hfirst.mem,?_⟩,⟨level,hlevel,pre,config,post,hfirst⟩,?_⟩
  · rw [hfirst.choice_eq]
    exact admits_choice hfirst.onLevel
  · simp only [← openable_iff]
    exact hfirst.accepted_iff hlevel h

def u8Config : SupportedStreamConfigRange := ⟨2,44100,48000,.u8,by decide⟩

def i16Config : SupportedStreamConfigRange := ⟨2,44100,44100,.i16,by decide⟩

def f32Config : SupportedStreamConfigRange := ⟨1,8000,44100,.f32,by decide⟩

def u16Config : SupportedStreamConfigRange := ⟨2,8000,96000,.u16,by decide⟩

/-- The last configuration is chosen: the others in front of it do not admit 48000 Hz, or have a
format that is in no priority. -/
theorem findBest_several :
    (∃ config ∈ [u8Config,i16Config,f32Config,u16Config], config.Admits (48000,.u16,2)) ∧
    FollowsPriorities [u8Config,i16Config,f32Config,u16Config] (48000,.u16,2) ∧
    SampleFormat.u16.Accepted := by
  obtain ⟨choice,hbest,hadmits,hfollows,haccepted⟩ :=
    findBest_spec (show [u8Config,i16Config,f32Config,u16Config] ≠ [] by simp)
  obtain rfl : (48000,.u16,2) = choice := Except.ok.inj hbest
  refine ⟨hadmits,hfollows,haccepted.mpr (.inl ⟨f32Config,?_,.inl rfl⟩)⟩
  exact List.mem_cons_of_mem _ (List.mem_cons_of_mem _ List.mem_cons_self)

/-- The device has a format that can be opened, but another one comes first. -/
theorem i16_passed_over : ∃ config ∈ [u8Config,i16Config], config.sampleFormat.Accepted ∧
    findBestStreamConfig [u8Config,i16Config] = .ok (48000,.u8,2) ∧ ¬SampleFormat.u8.Accepted := by
  refine ⟨i16Config,List.mem_cons_of_mem _ List.mem_cons_self,?_,rfl,?_⟩
  · rw [accepted_iff]
    exact .inr (.inl rfl)
  · rw [accepted_iff]
    simp

end VoiceApp.Desktop
