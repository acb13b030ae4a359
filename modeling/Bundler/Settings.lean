import Bundler.Loader.Rule

/-! The settings of a build with every default filled in. -/
namespace Bundler

structure Settings where
  root : Path
  entry : Specifier := "./src/index.js"
  outputPath : Path := root.join ⟨"dist"⟩
  outputFile : String := "bundle.js"
  rules : List LoaderRule := []
deriving Inhabited

/-- Where the script is written. -/
def Settings.artifactPath (s : Settings) : Path := s.outputPath.join ⟨s.outputFile⟩

end Bundler
