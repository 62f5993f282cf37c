/-!
# Roots and weak storages

The root categories that are scanned on their own, and the storages of weak references that are
swept when a pause ends.
-/
namespace HeapBridge.Scan

/-- A category of roots. -/
inductive RootKind
  | static
  | global
  | wellKnown
  | handle
  | monitor
  | management
  | toolExport
  | archive
  | systemDictionary
  | codeCache
  | stringTable
  | weakProcessor
  | vmThread
deriving DecidableEq, Inhabited

namespace RootKind

def all : List RootKind :=
  [static, global, wellKnown, handle, monitor, management, toolExport, archive, systemDictionary,
    codeCache, stringTable, weakProcessor, vmThread]

def name : RootKind → String
  | static => "Static"
  | global => "Global"
  | wellKnown => "Universe"
  | handle => "JniHandle"
  | monitor => "ObjectSynchronizer"
  | management => "Management"
  | toolExport => "JvmtiExport"
  | archive => "AotLoader"
  | systemDictionary => "SystemDictionary"
  | codeCache => "CodeCache"
  | stringTable => "StringTable"
  | weakProcessor => "WeakProcessor"
  | vmThread => "VmThread"

end RootKind

/-- A storage of weak references. -/
inductive WeakStorage
  | handles
  | toolExport
  | vm
  | recorder
deriving DecidableEq, Inhabited

namespace WeakStorage

/-- All storages, in the order in which the end of a pause sweeps them. -/
def all : List WeakStorage := [handles, toolExport, vm, recorder]

def name : WeakStorage → String
  | handles => "JniHandles"
  | toolExport => "JvmtiExport"
  | vm => "VmWeak"
  | recorder => "Jfr"

def code : WeakStorage → Int
  | handles => 0
  | toolExport => 1
  | vm => 2
  | recorder => 3

def ofCode? (i : Int) : Option WeakStorage := all.find? fun s => s.code == i

@[simp] theorem ofCode?_code (s : WeakStorage) : ofCode? s.code = some s := by cases s <;> rfl

end WeakStorage
end HeapBridge.Scan
