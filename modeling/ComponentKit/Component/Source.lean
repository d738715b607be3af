import ComponentKit.Component.Placeholder
import ComponentKit.Kind

/-!
# Component sources

The source text of a component of each kind, line by line, with placeholders for its names. All of them start with
the same `header` comment; `sourceTemplate` is the whole.
-/

namespace ComponentKit.Component

/-- The comment at the start of every component. -/
def header : List Template := [
  ["/**"],
  [" * ", typeSlot],
  [" * ", descriptionInComment],
  [" *"],
  [" * Project: ", projectInComment],
  [" * Author: ", authorInComment],
  [" * Created: ", dateSlot],
  [" */"]]

/-- The imports and the types in front of the class of a tool. -/
def toolPreamble : List Template := [
  [],
  ["import \x7b z \x7d from 'zod';"],
  ["import \x7b logger \x7d from '../utils/logger.js';"],
  [],
  ["export const ", instanceSlot, "Schema = z.object(\x7b"],
  ["  input: z.string().min(1).describe('Input for the ", keySlot, " tool'),"],
  ["\x7d);"],
  [],
  ["export type ", typeSlot, "Input = z.infer<typeof ", instanceSlot, "Schema>;"],
  [],
  ["export interface ", typeSlot, "Result \x7b"],
  ["  content: Array<\x7b type: 'text'; text: string \x7d>;"],
  ["  isError?: boolean;"],
  ["\x7d"],
  []]

/-- A tool validates its input against a schema and answers with text. -/
def toolClass : List Template := [
  ["export class ", typeSlot, " \x7b"],
  ["  readonly name = '", keySlot, "';"],
  ["  readonly description = '", descriptionInString, "';"],
  ["  readonly inputSchema = ", instanceSlot, "Schema;"],
  [],
  ["  initialize(): void \x7b"],
  ["    logger.debug(\x60Tool initialized: $\x7bthis.name\x7d\x60);"],
  ["  \x7d"],
  [],
  ["  async execute(args: unknown): Promise<", typeSlot, "Result> \x7b"],
  ["    const parsed = ", instanceSlot, "Schema.safeParse(args);"],
  ["    if (!parsed.success) \x7b"],
  ["      return \x7b"],
  ["        content: [\x7b type: 'text', text: \x60Invalid arguments: $\x7bparsed.error.message\x7d\x60 \x7d],"],
  ["        isError: true,"],
  ["      \x7d;"],
  ["    \x7d"],
  [],
  ["    try \x7b"],
  ["      // TODO: implement the ", keySlot, " tool logic"],
  ["      const output = \x60", typeSlot, " received: $\x7bparsed.data.input\x7d\x60;"],
  ["      return \x7b content: [\x7b type: 'text', text: output \x7d] \x7d;"],
  ["    \x7d catch (error) \x7b"],
  ["      const message = error instanceof Error ? error.message : String(error);"],
  ["      logger.error(\x60Tool $\x7bthis.name\x7d failed: $\x7bmessage\x7d\x60);"],
  ["      return \x7b content: [\x7b type: 'text', text: message \x7d], isError: true \x7d;"],
  ["    \x7d"],
  ["  \x7d"],
  ["\x7d"]]

/-- The imports and the types in front of the class of a resource. -/
def resourcePreamble : List Template := [
  [],
  ["import \x7b logger \x7d from '../utils/logger.js';"],
  [],
  ["export interface ", typeSlot, "Contents \x7b"],
  ["  uri: string;"],
  ["  mimeType: string;"],
  ["  text: string;"],
  ["\x7d"],
  []]

/-- A resource answers with a document that it keeps until it is invalidated. -/
def resourceClass : List Template := [
  ["export class ", typeSlot, " \x7b"],
  ["  readonly name = '", keySlot, "';"],
  ["  readonly uri = '", projectSlot, "://", keySlot, "';"],
  ["  readonly description = '", descriptionInString, "';"],
  ["  readonly mimeType = 'application/json';"],
  [],
  ["  private cache: ", typeSlot, "Contents | null = null;"],
  [],
  ["  initialize(): void \x7b"],
  ["    logger.debug(\x60Resource initialized: $\x7bthis.uri\x7d\x60);"],
  ["  \x7d"],
  [],
  ["  async read(): Promise<\x7b contents: ", typeSlot, "Contents[] \x7d> \x7b"],
  ["    if (!this.cache) \x7b"],
  ["      // TODO: load the data exposed by the ", keySlot, " resource"],
  ["      const data = \x7b"],
  ["        name: this.name,"],
  ["        generatedAt: new Date().toISOString(),"],
  ["      \x7d;"],
  ["      this.cache = \x7b"],
  ["        uri: this.uri,"],
  ["        mimeType: this.mimeType,"],
  ["        text: JSON.stringify(data, null, 2),"],
  ["      \x7d;"],
  ["    \x7d"],
  ["    return \x7b contents: [this.cache] \x7d;"],
  ["  \x7d"],
  [],
  ["  invalidate(): void \x7b"],
  ["    this.cache = null;"],
  ["  \x7d"],
  ["\x7d"]]

/-- The imports and the types in front of the class of a prompt. -/
def promptPreamble : List Template := [
  [],
  ["import \x7b z \x7d from 'zod';"],
  ["import \x7b logger \x7d from '../utils/logger.js';"],
  [],
  ["export const ", instanceSlot, "Arguments = z.object(\x7b"],
  ["  topic: z.string().describe('Subject the prompt should address'),"],
  ["  tone: z.enum(['neutral', 'friendly', 'formal']).optional(),"],
  ["\x7d);"],
  [],
  ["export type ", typeSlot, "Arguments = z.infer<typeof ", instanceSlot, "Arguments>;"],
  []]

/-- A prompt fills its arguments into a message. -/
def promptClass : List Template := [
  ["export class ", typeSlot, " \x7b"],
  ["  readonly name = '", keySlot, "';"],
  ["  readonly description = '", descriptionInString, "';"],
  ["  readonly argsSchema = ", instanceSlot, "Arguments;"],
  [],
  ["  initialize(): void \x7b"],
  ["    logger.debug(\x60Prompt initialized: $\x7bthis.name\x7d\x60);"],
  ["  \x7d"],
  [],
  ["  render(args: ", typeSlot, "Arguments): \x7b"],
  ["    messages: Array<\x7b role: 'user'; content: \x7b type: 'text'; text: string \x7d \x7d>;"],
  ["  \x7d \x7b"],
  ["    const \x7b topic, tone = 'neutral' \x7d = ", instanceSlot, "Arguments.parse(args);"],
  ["    // TODO: adjust the ", keySlot, " prompt text"],
  ["    const text = \x60Using a $\x7btone\x7d tone, help with the following topic: $\x7btopic\x7d\x60;"],
  ["    return \x7b"],
  ["      messages: [\x7b role: 'user', content: \x7b type: 'text', text \x7d \x7d],"],
  ["    \x7d;"],
  ["  \x7d"],
  ["\x7d"]]

/-- The imports and the types in front of the class of a service. -/
def servicePreamble : List Template := [
  [],
  ["import \x7b logger \x7d from '../utils/logger.js';"],
  [],
  ["export interface ", typeSlot, "Options \x7b"],
  ["  retries?: number;"],
  ["  timeoutMs?: number;"],
  ["\x7d"],
  []]

/-- A service retries its work and bounds the time it takes. -/
def serviceClass : List Template := [
  ["export class ", typeSlot, " \x7b"],
  ["  private readonly retries: number;"],
  ["  private readonly timeoutMs: number;"],
  [],
  ["  constructor(options: ", typeSlot, "Options = \x7b\x7d) \x7b"],
  ["    this.retries = options.retries ?? 3;"],
  ["    this.timeoutMs = options.timeoutMs ?? 10000;"],
  ["  \x7d"],
  [],
  ["  async process<T>(input: T): Promise<T> \x7b"],
  ["    let lastError: unknown;"],
  ["    for (let attempt = 1; attempt <= this.retries; attempt++) \x7b"],
  ["      try \x7b"],
  ["        // TODO: implement the ", keySlot, " service logic"],
  ["        return await this.withTimeout(Promise.resolve(input));"],
  ["      \x7d catch (error) \x7b"],
  ["        lastError = error;"],
  ["        logger.warn(\x60", typeSlot, " attempt $\x7battempt\x7d failed\x60);"],
  ["      \x7d"],
  ["    \x7d"],
  ["    throw lastError instanceof Error ? lastError : new Error(String(lastError));"],
  ["  \x7d"],
  []]

/-- The bound on the time that the work of a service takes. -/
def serviceTimeout : List Template := [
  ["  private withTimeout<T>(work: Promise<T>): Promise<T> \x7b"],
  ["    return new Promise<T>((resolve, reject) => \x7b"],
  ["      const timer = setTimeout("],
  ["        () => reject(new Error(\x60", typeSlot,
    " timed out after $\x7bthis.timeoutMs\x7dms\x60)),"],
  ["        this.timeoutMs,"],
  ["      );"],
  ["      work.then("],
  ["        (value) => \x7b"],
  ["          clearTimeout(timer);"],
  ["          resolve(value);"],
  ["        \x7d,"],
  ["        (error) => \x7b"],
  ["          clearTimeout(timer);"],
  ["          reject(error);"],
  ["        \x7d,"],
  ["      );"],
  ["    \x7d);"],
  ["  \x7d"],
  ["\x7d"],
  [],
  ["export const ", instanceSlot, " = new ", typeSlot, "();"]]

/-- The imports and the types in front of the class of a transport. -/
def transportPreamble : List Template := [
  [],
  ["import type \x7b Transport \x7d from '@modelcontextprotocol/sdk/shared/transport.js';"],
  ["import type \x7b JSONRPCMessage \x7d from '@modelcontextprotocol/sdk/types.js';"],
  ["import \x7b logger \x7d from '../utils/logger.js';"],
  []]

/-- A transport carries messages between a server and its client. -/
def transportClass : List Template := [
  ["export class ", typeSlot, " implements Transport \x7b"],
  ["  onclose?: () => void;"],
  ["  onerror?: (error: Error) => void;"],
  ["  onmessage?: (message: JSONRPCMessage) => void;"],
  [],
  ["  private started = false;"],
  [],
  ["  async start(): Promise<void> \x7b"],
  ["    if (this.started) \x7b"],
  ["      throw new Error('", typeSlot, " already started');"],
  ["    \x7d"],
  ["    this.started = true;"],
  ["    // TODO: open the underlying ", keySlot, " connection"],
  ["    logger.info('", typeSlot, " started');"],
  ["  \x7d"],
  [],
  ["  async send(message: JSONRPCMessage): Promise<void> \x7b"],
  ["    if (!this.started) \x7b"],
  ["      throw new Error('", typeSlot, " is not started');"],
  ["    \x7d"],
  ["    // TODO: deliver the message over the ", keySlot, " connection"],
  ["    logger.debug(\x60", typeSlot, " sending $\x7bJSON.stringify(message)\x7d\x60);"],
  ["  \x7d"],
  [],
  ["  async close(): Promise<void> \x7b"],
  ["    this.started = false;"],
  ["    this.onclose?.();"],
  ["  \x7d"],
  ["\x7d"]]

/-- The imports and the types in front of the class of a util. -/
def utilPreamble : List Template := [
  []]

/-- A util keeps the results of computations. -/
def utilClass : List Template := [
  ["export class ", typeSlot, " \x7b"],
  ["  private readonly cache = new Map<string, unknown>();"],
  [],
  ["  memoize<T>(key: string, compute: () => T): T \x7b"],
  ["    if (this.cache.has(key)) \x7b"],
  ["      return this.cache.get(key) as T;"],
  ["    \x7d"],
  ["    const value = compute();"],
  ["    this.cache.set(key, value);"],
  ["    return value;"],
  ["  \x7d"],
  [],
  ["  clear(): void \x7b"],
  ["    this.cache.clear();"],
  ["  \x7d"],
  ["\x7d"],
  [],
  ["export const ", instanceSlot, " = new ", typeSlot, "();"],
  [],
  ["export function ", instanceSlot, "Memoize<T>(key: string, compute: () => T): T \x7b"],
  ["  return ", instanceSlot, ".memoize(key, compute);"],
  ["\x7d"]]

/-- The source text of a component after its `header`. -/
def body : Kind → List Template
  | .tool => toolPreamble ++ toolClass
  | .resource => resourcePreamble ++ resourceClass
  | .prompt => promptPreamble ++ promptClass
  | .service => servicePreamble ++ serviceClass ++ serviceTimeout
  | .transport => transportPreamble ++ transportClass
  | .util => utilPreamble ++ utilClass

/-- The source text of a component: the `header` and the `body` of its kind. -/
def sourceTemplate (kind : Kind) : Template :=
  Template.ofLines (header ++ body kind)

end ComponentKit.Component
