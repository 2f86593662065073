import Reconciliation.Text.Blank

/-! # Extension contracts

The contracts that a container can install, and the class of a registered object. Types are compared
by their simple name: what follows the last point or colon.
-/
namespace Reconciliation

def simpleNameChars (cs : List Char) : List Char :=
  ((Text.trimChars cs).reverse.takeWhile fun c => c != '.' && c != ':').reverse

def simpleName (s : String) : String :=
  String.ofList (simpleNameChars s.toList)

inductive Contract where
  | containerRequestFilter
  | containerResponseFilter
  | readerInterceptor
  | writerInterceptor
  | messageBodyReader
  | messageBodyWriter
  | contextResolver
  | exceptionMapper
  | paramConverterProvider
  | feature
  | dynamicFeature
  deriving DecidableEq, Repr

namespace Contract

def all : List Contract :=
  [containerRequestFilter, containerResponseFilter, readerInterceptor, writerInterceptor,
   messageBodyReader, messageBodyWriter, contextResolver, exceptionMapper, paramConverterProvider,
   feature, dynamicFeature]

def name : Contract → String
  | containerRequestFilter => "ContainerRequestFilter"
  | containerResponseFilter => "ContainerResponseFilter"
  | readerInterceptor => "ReaderInterceptor"
  | writerInterceptor => "WriterInterceptor"
  | messageBodyReader => "MessageBodyReader"
  | messageBodyWriter => "MessageBodyWriter"
  | contextResolver => "ContextResolver"
  | exceptionMapper => "ExceptionMapper"
  | paramConverterProvider => "ParamConverterProvider"
  | feature => "Feature"
  | dynamicFeature => "DynamicFeature"

def ofTypeName? (typeName : String) : Option Contract :=
  all.find? fun c => c.name == simpleName typeName

end Contract

structure ObjectClass where
  typeName : String
  interfaces : List String
  deriving DecidableEq, Repr

def ObjectClass.implements (c : ObjectClass) (typeName : String) : Bool :=
  simpleName c.typeName == simpleName typeName ||
    c.interfaces.any fun i => simpleName i == simpleName typeName

end Reconciliation
