import Atlas.Files.System
import Atlas.Ignore
import Atlas.Kubernetes.Manifest
import Atlas.Kubernetes.Graph

/-!
# Scanning manifests

The manifests below some root directories, in the order of their paths. Whatever matches an ignored
pattern is left out with all below it, be it a root, a directory or a file.
-/

namespace Atlas.Kubernetes

/-- Whether a file at this path is a manifest. -/
def isManifest (path : String) : Bool :=
  match (Path.fileName? path).bind Path.extension? with
  | some e => e == "yaml" || e == "yml"
  | none => false

/-- The paths and the texts of the manifests below a root. -/
def manifestsBelow (ignores : IgnoreSet) (path : String) (root : FileTree) :
    List (String × String) :=
  let files := root.walk (fun names _ => !ignores.isMatch (Path.below path names)) []
  (files.filter fun f => isManifest (Path.below path f.path)).map fun f =>
    (Path.below path f.path, Utf8.decodeLossy f.content)

/-- The inventory with the resources below the root at a path. -/
def scanRoot (fs : FileSystem) (ignores : IgnoreSet) (inv : Inventory) (path : String) :
    Result Inventory :=
  match fs.get? path with
  | none => .error (.pathNotFound path)
  | some root =>
    .ok ((manifestsBelow ignores path root).foldl
      (fun inv (p, text) => inv.readManifest .yaml p text) inv)

/-- The manifests below some paths. -/
def scan (fs : FileSystem) (paths ignores : List String) : Result Manifests := do
  return .ofResources (← paths.foldlM (scanRoot fs (.ofTexts ignores)) .empty).resources

end Atlas.Kubernetes
