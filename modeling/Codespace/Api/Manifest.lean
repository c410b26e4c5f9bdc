import Codespace.Api.Session

/-!
# The children of a Session, as apply configurations

What the controller sends for each child: the fields its `With...` calls set and no
others. A `Manifest` is one server-side-apply request body; its `ChildKey` is the object
it is applied to.
-/

namespace Codespace
set_option autoImplicit false

inductive Kind where
  | serviceAccount
  | persistentVolumeClaim
  | deployment
  | service
  | ingress
  deriving DecidableEq, Repr

structure ChildKey where
  kind : Kind
  key : Key
  deriving DecidableEq, Repr

structure OwnerReference where
  apiVersion : String
  kind : String
  name : String
  uid : Nat
  controller : Bool
  blockOwnerDeletion : Bool
  deriving DecidableEq, Repr

structure ServiceAccountApply where
  name : String
  ns : String
  owner : OwnerReference
  deriving DecidableEq, Repr

structure PersistentVolumeClaimApply where
  name : String
  ns : String
  accessModes : List String
  storage : String
  storageClassName : Option String
  owner : OwnerReference
  deriving DecidableEq, Repr

structure VolumeMount where
  name : String
  mountPath : String
  deriving DecidableEq, Repr

structure Volume where
  name : String
  claimName : String
  deriving DecidableEq, Repr

/-- Where an environment variable gets its value. -/
inductive EnvSource where
  | value (v : String)
  | secretKeyRef (name key : String)
  deriving DecidableEq, Repr

structure EnvVar where
  name : String
  source : EnvSource
  deriving DecidableEq, Repr

structure Container where
  name : String
  image : String
  args : List String
  ports : List Nat
  volumeMounts : List VolumeMount
  env : List EnvVar
  deriving DecidableEq, Repr

structure PodTemplate where
  labels : GoMap String String
  serviceAccountName : String
  volumes : List Volume
  containers : List Container
  deriving DecidableEq

structure DeploymentApply where
  name : String
  ns : String
  labels : GoMap String String
  matchLabels : GoMap String String
  replicas : Int32
  template : PodTemplate
  owner : OwnerReference
  deriving DecidableEq

structure ServicePort where
  name : String
  port : Nat
  targetPort : Nat
  deriving DecidableEq, Repr

structure ServiceApply where
  name : String
  ns : String
  selector : GoMap String String
  ports : List ServicePort
  owner : OwnerReference
  deriving DecidableEq

structure IngressBackend where
  serviceName : String
  portNumber : Nat
  deriving DecidableEq, Repr

structure IngressPath where
  path : String
  pathType : String
  backend : IngressBackend
  deriving DecidableEq, Repr

structure IngressRule where
  host : String
  paths : List IngressPath
  deriving DecidableEq, Repr

structure IngressTLS where
  hosts : List String
  secretName : String
  deriving DecidableEq, Repr

structure IngressApply where
  name : String
  ns : String
  annotations : GoMap String String
  rules : List IngressRule
  tls : List IngressTLS
  owner : OwnerReference
  deriving DecidableEq

/-- One apply request body. -/
inductive Manifest where
  | serviceAccount (m : ServiceAccountApply)
  | persistentVolumeClaim (m : PersistentVolumeClaimApply)
  | deployment (m : DeploymentApply)
  | service (m : ServiceApply)
  | ingress (m : IngressApply)
  deriving DecidableEq

namespace Manifest

/-- The object a manifest is applied to. -/
def key : Manifest → ChildKey
  | .serviceAccount m => ⟨.serviceAccount, m.ns, m.name⟩
  | .persistentVolumeClaim m => ⟨.persistentVolumeClaim, m.ns, m.name⟩
  | .deployment m => ⟨.deployment, m.ns, m.name⟩
  | .service m => ⟨.service, m.ns, m.name⟩
  | .ingress m => ⟨.ingress, m.ns, m.name⟩

/-- The owner reference every child carries. -/
def owner : Manifest → OwnerReference
  | .serviceAccount m => m.owner
  | .persistentVolumeClaim m => m.owner
  | .deployment m => m.owner
  | .service m => m.owner
  | .ingress m => m.owner

end Manifest

end Codespace
