import TypedWrappers.Generated.File

/-!
# Marker types

The sources of the types that the generator contributes itself: each an empty class.
-/

namespace TypedWrappers

/-- The file of a marker type. -/
def MarkerSource.render (config : Config) (source : MarkerSource) : Except GenerationError GeneratedFile := do
  let file : FileDraft := { banner := config.banner, ns := source.ns }
  let container : ClassDraft :=
    { name := source.name, declaration := some source.declaration, attributes := source.attributes }
  let model ← file.build container
  pure { fileName := source.fileName, model }

end TypedWrappers
