import CodeAtlas.Path.Basic

/-!
# `CodeAtlas.Project.Layout`: where a project keeps what is known of it

Everything lies in one directory at the root of the project.
-/

set_option autoImplicit false

namespace CodeAtlas.Layout

/-- The directory of everything that is kept. -/
def dataDirectory (root : Path) : Path := root.join ⟨".repolens"⟩

/-- The document of the configuration. -/
def configFile (root : Path) : Path := (dataDirectory root).join ⟨"config.json"⟩

/-- The table of vectors. -/
def tableFile (root : Path) : Path := (dataDirectory root).join ⟨"index.db"⟩

/-- The document of the graph. -/
def graphFile (root : Path) : Path := (dataDirectory root).join ⟨"graph.json"⟩

/-- The log of the command line. -/
def logFile (root : Path) : Path := (dataDirectory root).join ⟨"repolens.log"⟩

/-- What version control is told to leave alone. -/
def ignoreFile (root : Path) : Path := (dataDirectory root).join ⟨".gitignore"⟩

end CodeAtlas.Layout
