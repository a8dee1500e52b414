import KotlinCompile.Text.Cut

/-! One option for a compiler plugin, written plugin:id:key=value. The value is free text; the id
holds no colon, the key neither a colon nor an equals sign, and kapt, the plugin for annotation
processing, knows all its keys. -/
namespace KotlinCompile.Kapt

def pluginId : String := "org.jetbrains.kotlin.kapt3"

inductive Key where
  | sources
  | classes
  | stubs
  | apClasspath
  | correctErrorTypes
  | aptMode
  | apOptions
  | javacArguments
  | processors
  | incrementalData
  | includeCompileClasspath
  | mapDiagnosticLocations
  | useLightAnalysis
  | showProcessorTimings
  | strictMode
  | infoAsWarnings
  | verbose
deriving DecidableEq

namespace Key

def all : List Key :=
  [sources, classes, stubs, apClasspath, correctErrorTypes, aptMode, apOptions, javacArguments,
    processors, incrementalData, includeCompileClasspath, mapDiagnosticLocations,
    useLightAnalysis, showProcessorTimings, strictMode, infoAsWarnings, verbose]

def name : Key → String
  | sources => "sources"
  | classes => "classes"
  | stubs => "stubs"
  | apClasspath => "apclasspath"
  | correctErrorTypes => "correctErrorTypes"
  | aptMode => "aptMode"
  | apOptions => "apoptions"
  | javacArguments => "javacArguments"
  | processors => "processors"
  | incrementalData => "incrementalData"
  | includeCompileClasspath => "includeCompileClasspath"
  | mapDiagnosticLocations => "mapDiagnosticLocations"
  | useLightAnalysis => "useLightAnalysis"
  | showProcessorTimings => "showProcessorTimings"
  | strictMode => "strictMode"
  | infoAsWarnings => "infoAsWarnings"
  | verbose => "verbose"

def ofName? (name : String) : Option Key := all.find? fun key => key.name == name

end Key
end KotlinCompile.Kapt

namespace KotlinCompile

structure PluginOption where
  pluginId : String
  key : String
  value : String
deriving DecidableEq

namespace PluginOption

inductive Fault where
  | notPluginForm
  | missingColon
  | missingEquals
  | badPluginId (pluginId : String)
  | badKey (key : String)
  | unknownKaptKey (key : String)
deriving DecidableEq

def Fault.message : Fault → String
  | notPluginForm => "expected the form plugin:<id>:<key>=<value>"
  | missingColon => "missing ':' between plugin id and option"
  | missingEquals => "missing '=' between option name and value"
  | badPluginId pluginId => s!"malformed plugin id '{pluginId}'"
  | badKey key => s!"malformed option name '{key}'"
  | unknownKaptKey key => s!"kapt has no option named '{key}'"

/-- The text that was refused, and why. -/
structure Error where
  option : String
  fault : Fault
deriving DecidableEq

def text (option : PluginOption) : String :=
  "plugin:" ++ option.pluginId ++ ":" ++ option.key ++ "=" ++ option.value

def fault? (option : PluginOption) : Option Fault :=
  if option.pluginId = "" ∨ ':' ∈ option.pluginId.toList then some (.badPluginId option.pluginId)
  else if option.key = "" ∨ '=' ∈ option.key.toList ∨ ':' ∈ option.key.toList then
    some (.badKey option.key)
  else if option.pluginId = Kapt.pluginId ∧ Kapt.Key.ofName? option.key = none then
    some (.unknownKaptKey option.key)
  else none

/-- The option itself, unless it could not be read back from its text. -/
def checked (option : PluginOption) : Except Error PluginOption :=
  match option.fault? with
  | some fault => .error ⟨option.text, fault⟩
  | none => .ok option

def kapt (key : Kapt.Key) (value : String) : PluginOption := ⟨Kapt.pluginId, key.name, value⟩

def parse (raw : String) : Except Error PluginOption :=
  match Text.behind? "plugin:".toList raw.toList with
  | none => .error ⟨raw, .notPluginForm⟩
  | some body =>
    match Text.cutAt? ':' body with
    | none => .error ⟨raw, .missingColon⟩
    | some (pluginId, assignment) =>
      match Text.cutAt? '=' assignment with
      | none => .error ⟨raw, .missingEquals⟩
      | some (key, value) =>
        checked ⟨String.ofList pluginId, String.ofList key, String.ofList value⟩

end PluginOption
end KotlinCompile
