/-! # Property keys

The keys of a registration that mean something to the reconciler, and the names it reserves.
-/
namespace Reconciliation.Keys

def serviceId := "service.id"

def serviceRanking := "service.ranking"

def serviceScope := "service.scope"

def objectClass := "objectClass"

def name := "whiteboard.name"

def applicationBase := "whiteboard.application.base"

def applicationSelect := "whiteboard.application.select"

def extensionSelect := "whiteboard.extension.select"

def target := "whiteboard.target"

def resource := "whiteboard.resource"

def extension := "whiteboard.extension"

def defaultName := ".default"

/-- Every generated name starts with this character, and of the explicit ones only that of a default
application may. -/
def reservedMark := '.'

end Reconciliation.Keys
