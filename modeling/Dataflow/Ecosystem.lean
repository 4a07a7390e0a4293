import Dataflow.Model

/-!
# Ecosystems

The ecosystems whose models are written as rows, and what they share: the name of the predicate that
holds the rows of a variant and the kinds a model of a variant may have.
-/

namespace Dataflow

/-- A family of libraries with one way to write models. -/
inductive Ecosystem where
  | java
  | csharp
  | python
  | ruby
  deriving DecidableEq, Repr

namespace Ecosystem

/-- The wire name of an ecosystem. -/
def name : Ecosystem → String
  | java => "java"
  | csharp => "csharp"
  | python => "python"
  | ruby => "ruby"

instance : Named Ecosystem where
  all := [.java, .csharp, .python, .ruby]
  name := name

/-- The ecosystem of a name in any ASCII case. -/
def ofText? (text : String) : Option Ecosystem :=
  (Named.all : List Ecosystem).find? fun ecosystem =>
    ecosystem.name.toList == text.toList.map Char.toLower

end Ecosystem

/-- The predicate whose rows hold the models of a variant. -/
def Variant.predicate? : Variant → Option String
  | .source => some "sourceModel"
  | .sink => some "sinkModel"
  | .summary => some "summaryModel"
  | .neutral => some "neutralModel"
  | .type => some "typeModel"
  | .none => Option.none

/-- The kinds a model of a variant may have. -/
def Variant.kinds : Variant → List String
  | .source => ["local", "remote"]
  | .sink =>
    ["code-injection", "command-injection", "environment-injection", "file-content-store",
      "html-injection", "js-injection", "ldap-injection", "log-injection", "path-injection",
      "request-forgery", "sql-injection", "url-redirection"]
  | .summary => ["taint", "value"]
  | .neutral => ["summary", "source", "sink"]
  | .type | .none => []

end Dataflow
