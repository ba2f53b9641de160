import ShaderShrink.Program.Coding

/-!
# Jobs

A job is what a shader executor is asked to run: a program with a name and the language that it is
written in. A job file is its pretty JSON text. A pair of jobs, a reference program and a variant
that ought to behave like it, is one unit of work of the pipeline.
-/

namespace ShaderShrink

open Json (Decoder Failure)

/-- A program to run. -/
structure ShaderJob where
  name : String
  /-- The shading language with its version, such as `glsl-310es`. -/
  language : String
  program : Program
  deriving DecidableEq, Repr, Inhabited

namespace ShaderJob

/-- A job as a JSON value. -/
def toJson (j : ShaderJob) : Json :=
  .obj [("name", .str j.name), ("language", .str j.language), ("program", j.program.toJson)]

/-- Decodes a job. -/
def ofJson : Decoder ShaderJob := Json.record ["name", "language", "program"] <|
  ShaderJob.mk <$> Json.required "name" Json.string
    <*> Json.required "language" Json.string
    <*> Json.required "program" Program.ofJson

/-- The text of the job file. -/
def encode (j : ShaderJob) : String := j.toJson.pretty

/-- Decodes the text of a job file. -/
def decode (text : String) : Except Failure ShaderJob := Json.decode ofJson text

end ShaderJob

/-- A reference program and a variant of it. -/
structure ProgramPair where
  reference : ShaderJob
  variant : ShaderJob
  deriving DecidableEq, Repr, Inhabited

namespace ProgramPair

/-- A pair as a JSON value. -/
def toJson (p : ProgramPair) : Json :=
  .obj [("reference", p.reference.toJson), ("variant", p.variant.toJson)]

/-- Decodes a pair. -/
def ofJson : Decoder ProgramPair := Json.record ["reference", "variant"] <|
  ProgramPair.mk <$> Json.required "reference" ShaderJob.ofJson
    <*> Json.required "variant" ShaderJob.ofJson

/-- Decodes the text of a pair. -/
def decode (text : String) : Except Failure ProgramPair := Json.decode ofJson text

end ProgramPair

end ShaderShrink
