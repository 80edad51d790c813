import Groundplan.Project.Identity
import Groundplan.Source.Layout

/-!
# The manifest of a project

The manifest names the project, its requirements and its packages. Names and texts stand in it as
quoted literals.
-/

namespace Groundplan.Project

def subpackages : List String := ["domain", "api", "infrastructure", "repository"]

def packages (package : String) : List String :=
  package :: subpackages.map fun part => package ++ "." ++ part

def manifestLines (m : Model) (s : Settings) : List String := [
  "[build-system]",
  "requires = [\"setuptools>=61.0\"]",
  "build-backend = \"setuptools.build_meta\"",
  "",
  "[project]",
  "name = " ++ Text.literal (distributionName m),
  "version = \"" ++ projectVersion ++ "\"",
  "description = " ++ Text.literal (description m),
  "readme = \"README.md\"",
  "requires-python = " ++ Text.literal s.languageRange,
  "dependencies = [",
  "    # HTTP server and routing",
  "    \"fastapi>=0.110\",",
  "    \"uvicorn[standard]>=0.27\",",
  "    # Serialization and validation",
  "    \"pydantic>=2.5\",",
  "    # Date and time handling",
  "    \"python-dateutil>=2.8\",",
  "    # Structured logging",
  "    \"structlog>=24.1\",",
  "    # OpenAPI documentation is served by fastapi",
  "    # uuid and decimal come from the standard library",
  "]",
  "",
  "[project.optional-dependencies]",
  "sql = [\"sqlalchemy>=2.0\"]",
  "dev = [\"pytest>=7.4\", \"httpx>=0.27\"]",
  "",
  "[tool.setuptools]",
  "package-dir = \x7b" ++ Text.literal (packageName m s) ++ " = \"src\"\x7d",
  "packages = [" ++ ", ".intercalate ((packages (packageName m s)).map Text.literal) ++ "]"]

def manifest (m : Model) (s : Settings) : String :=
  Source.fileText (manifestLines m s)

end Groundplan.Project
